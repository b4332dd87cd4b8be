import Mathlib.Data.List.Forall2
import Stencil.Template.Parse

/-!
# Templates that differ in their sites only

Compiling one source twice gives two statements that differ in the numbers of their sites and in
nothing else. Which sites may stand for one another is left open: a `Likeness` carries a relation on
sites, and with it a predicate on custom directives and a relation on sources, so that one and the
same induction over the parser also tells which directives a compiled template can hold and which
sources are read for it.

* `Statement.Alike` relates statements of one shape. It is a relation and not an equality of what is
  left when sites are forgotten, since a render looks its sites up.
* `Draft.Alike` asks that the two drafts will number their next sites alike, however many there
  will be.
* The parser never looks at a site: every step of it takes alike blocks to alike blocks, or fails on
  both sides with the same error. The files matter to `#include` only. So the steps are compared for
  two parsers with files of their own, and what is asked of an include is asked where there is one.

Main definitions: `Likeness`, `Statement.Alike`, `Compiled.Alike`.
Main statement: `compile_alike` (what a source is compiled to depends on the number of its first
site only up to likeness).
-/

namespace Stencil

/-! ### Results that agree -/

/-- What goes well when one computation follows another. -/
theorem bind_eq_ok_iff {ε α β : Type} {x : Except ε α} {f : α → Except ε β} {b : β} :
    (x >>= f) = .ok b ↔ ∃ a, x = .ok a ∧ f a = .ok b := by
  constructor
  · intro h
    cases x with
    | ok a => exact ⟨a, rfl, h⟩
    | error e => cases h
  · rintro ⟨a, rfl, h⟩
    exact h

/-- What goes well when a result is changed. -/
theorem map_eq_ok_iff {ε α β : Type} {x : Except ε α} {f : α → β} {b : β} :
    x.map f = .ok b ↔ ∃ a, x = .ok a ∧ f a = b := by
  cases x with
  | ok a => simp [Except.map]
  | error e => simp [Except.map]

/-- Renaming an error makes no result of it. -/
theorem mapError_eq_ok_iff {ε ε' α : Type} {x : Except ε α} {f : ε → ε'} {a : α} :
    x.mapError f = .ok a ↔ x = .ok a := by
  cases x with
  | ok b => exact ⟨fun h => congrArg Except.ok (Except.ok.inj h),
      fun h => congrArg Except.ok (Except.ok.inj h)⟩
  | error e => exact ⟨nofun, nofun⟩

/-- Two computations end alike: well and with related results, or with the same error. -/
inductive Agree {ε α β : Type} (r : α → β → Prop) : Except ε α → Except ε β → Prop where
  | ok {a : α} {b : β} : r a b → Agree r (.ok a) (.ok b)
  | error (e : ε) : Agree r (.error e) (.error e)

namespace Agree

variable {ε α β γ δ : Type} {r : α → β → Prop} {s : γ → δ → Prop}

/-- Related results go on alike. -/
theorem bind {x : Except ε α} {y : Except ε β} {f : α → Except ε γ} {g : β → Except ε δ}
    (h : Agree r x y) (hf : ∀ a b, r a b → Agree s (f a) (g b)) : Agree s (x >>= f) (y >>= g) := by
  cases h with
  | ok hab => exact hf _ _ hab
  | error e => exact .error e

/-- Two computations with the same beginning agree if what follows its result does. -/
theorem after_ok {x : Except ε α} {f : α → Except ε γ} {g : α → Except ε δ}
    (hf : ∀ a, x = .ok a → Agree s (f a) (g a)) : Agree s (x >>= f) (x >>= g) := by
  cases x with
  | ok a => exact hf a rfl
  | error e => exact .error e

/-- Two computations with the same beginning agree if what follows it does. -/
theorem after {x : Except ε α} {f : α → Except ε γ} {g : α → Except ε δ}
    (hf : ∀ a, Agree s (f a) (g a)) : Agree s (x >>= f) (x >>= g) := after_ok fun a _ => hf a

/-- What agrees still agrees if less is asked of the results. -/
theorem imp {s : α → β → Prop} {x : Except ε α} {y : Except ε β} (h : Agree r x y)
    (hrs : ∀ a b, r a b → s a b) : Agree s x y := by
  cases h with
  | ok hab => exact .ok (hrs _ _ hab)
  | error e => exact .error e

/-- Errors that are reworded alike still agree. -/
theorem mapError {ε' : Type} {x : Except ε α} {y : Except ε β} (h : Agree r x y) (f : ε → ε') :
    Agree r (x.mapError f) (y.mapError f) := by
  cases h with
  | ok hab => exact .ok hab
  | error e => exact .error (f e)

end Agree

/-! ### Dictionaries with related values -/

section Entries

variable {α : Type} {r : α → α → Prop}

/-- Two lists of entries have the same keys, with related values. -/
def EntriesAlike (r : α → α → Prop) : List (String × α) → List (String × α) → Prop :=
  List.Forall₂ fun e e' => e.1 = e'.1 ∧ r e.2 e'.2

variable {l l' : List (String × α)}

/-- Alike entries have the same keys. -/
theorem EntriesAlike.map_fst_eq (h : EntriesAlike r l l') : l.map Prod.fst = l'.map Prod.fst := by
  induction h with
  | nil => rfl
  | cons hd _ ih => rw [List.map_cons, List.map_cons, hd.1, ih]

/-- Alike entries have related values under a key, or both none. -/
theorem EntriesAlike.lookup (h : EntriesAlike r l l') (key : String) :
    Option.Rel r (l.lookup key) (l'.lookup key) := by
  induction h with
  | nil => exact .none
  | @cons e e' _ _ hd _ ih =>
    rw [List.lookup_cons, List.lookup_cons, hd.1]
    cases key == e'.1 with
    | true => exact .some hd.2
    | false => exact ih

/-- Alike entries stay alike if related values are written. -/
theorem EntriesAlike.write (h : EntriesAlike r l l') (key : String) {a a' : α} (ha : r a a') :
    EntriesAlike r (Assoc.write key a l) (Assoc.write key a' l') := by
  induction h with
  | nil => exact .cons ⟨rfl, ha⟩ .nil
  | @cons e e' _ _ hd ht ih =>
    obtain ⟨k, v⟩ := e
    obtain ⟨k', v'⟩ := e'
    obtain ⟨rfl, hv⟩ : k = k' ∧ r v v' := hd
    -- an entry of the key gets the new value, and any other entry goes on
    by_cases hk : k = key
    · simp only [Assoc.write, hk, if_true]
      exact .cons ⟨rfl, ha⟩ ht
    · simp only [Assoc.write, hk, if_false]
      exact .cons ⟨rfl, hv⟩ ih

/-- Two dictionaries have the same keys in the same order, with related values. -/
def Assoc.Alike (r : α → α → Prop) (m m' : Assoc α) : Prop := EntriesAlike r m.entries m'.entries

namespace Assoc.Alike

variable {m m' : Assoc α}

theorem keys_eq (h : Assoc.Alike r m m') : m.keys = m'.keys := EntriesAlike.map_fst_eq h

/-- A key has related values in both, or none in either. -/
theorem get? (h : Assoc.Alike r m m') (key : String) :
    Option.Rel r (m.get? key) (m'.get? key) := EntriesAlike.lookup h key

theorem contains_eq (h : Assoc.Alike r m m') (key : String) :
    m.contains key = m'.contains key := by
  rw [Bool.eq_iff_iff, contains_iff_mem_keys, contains_iff_mem_keys, h.keys_eq]

/-- Alike dictionaries stay alike if related values are inserted. -/
theorem insert (h : Assoc.Alike r m m') (key : String) {a a' : α} (ha : r a a') :
    Assoc.Alike r (m.insert key a) (m'.insert key a') := EntriesAlike.write h key ha

/-- Alike dictionaries stay alike if alike entries are inserted. -/
theorem insertAll (h : Assoc.Alike r m m') (hl : EntriesAlike r l l') :
    Assoc.Alike r (m.insertAll l) (m'.insertAll l') := by
  induction hl generalizing m m' with
  | nil => exact h
  | @cons e e' _ _ hd _ ih =>
    obtain ⟨k, v⟩ := e
    obtain ⟨k', v'⟩ := e'
    obtain ⟨rfl, hv⟩ : k = k' ∧ r v v' := hd
    exact ih (h.insert k hv)

end Assoc.Alike

end Entries

/-! ### Likeness -/

/-- In what two compiled templates may differ, and what they may hold. -/
structure Likeness where
  /-- Which sites may stand for one another. -/
  sites : Nat → Nat → Prop
  /-- The custom directives that may occur. -/
  directive : Directive → Prop
  /-- Which sources may be read for one another. -/
  source : Source → Source → Prop

mutual

/-- Two statements of one shape, with the same directives and with sites that may stand for one
another. -/
inductive Statement.Alike (R : Likeness) : Statement → Statement → Prop where
  | nothing : Statement.Alike R .nothing .nothing
  | text (content : String) : Statement.Alike R (.text content) (.text content)
  | output (value : Expr) : Statement.Alike R (.output value) (.output value)
  | condition (test : Expr) {yes yes' no no' : Statement} : Statement.Alike R yes yes' →
      Statement.Alike R no no' →
      Statement.Alike R (.condition test yes no) (.condition test yes' no')
  | loop (head : LoopHead) {body body' otherwise otherwise' : Statement} :
      Statement.Alike R body body' → Statement.Alike R otherwise otherwise' →
      Statement.Alike R (.loop head body otherwise) (.loop head body' otherwise')
  | switch (subject : Expr) {cases cases' : List Case} {otherwise otherwise' : Statement} :
      List.Forall₂ (Case.Alike R) cases cases' → Statement.Alike R otherwise otherwise' →
      Statement.Alike R (.switch subject cases otherwise) (.switch subject cases' otherwise')
  | definition (name : String) : Statement.Alike R (.definition name) (.definition name)
  | call (callee : Callee) (args : List Expr) (ifDefined : Bool) (location : Location) :
      Statement.Alike R (.call callee args ifDefined location)
        (.call callee args ifDefined location)
  | inlined (assignments : List Expr) {body body' : Statement} : Statement.Alike R body body' →
      Statement.Alike R (.inlined assignments body) (.inlined assignments body')
  | render (file : String) (assignments : List Expr) {site site' : Nat} (location : Location) :
      R.sites site site' →
      Statement.Alike R (.render file assignments site location)
        (.render file assignments site' location)
  | assign (policy : Policy) (assignments : List Expr) :
      Statement.Alike R (.assign policy assignments) (.assign policy assignments)
  | jump (kind : Jump) : Statement.Alike R (.jump kind) (.jump kind)
  | custom {directive : Directive} (args : List Expr) {body body' : Statement}
      (location : Location) : R.directive directive → Statement.Alike R body body' →
      Statement.Alike R (.custom directive args body location)
        (.custom directive args body' location)
  | block {statements statements' : List Statement} :
      List.Forall₂ (Statement.Alike R) statements statements' →
      Statement.Alike R (.block statements) (.block statements')

/-- Two cases for the same values, with alike bodies. -/
inductive Case.Alike (R : Likeness) : Case → Case → Prop where
  | mk (values : List Expr) {body body' : Statement} : Statement.Alike R body body' →
      Case.Alike R (.mk values body) (.mk values body')

end

/-- Two functions that differ in the sites of their bodies only. -/
structure TemplateFunction.Alike (R : Likeness) (f f' : TemplateFunction) : Prop where
  name : f.name = f'.name
  parameters : f.parameters = f'.parameters
  location : f.location = f'.location
  body : Statement.Alike R f.body f'.body

/-- Two compiled templates that differ in their sites only. -/
structure Compiled.Alike (R : Likeness) (c c' : Compiled) : Prop where
  body : Statement.Alike R c.body c'.body
  functions : Assoc.Alike (TemplateFunction.Alike R) c.functions c'.functions
  sources : List.Forall₂ R.source c.sources c'.sources

/-- Two drafts that differ in their sites only, and will. -/
structure Draft.Alike (R : Likeness) (d d' : Draft) : Prop where
  functions : Assoc.Alike (TemplateFunction.Alike R) d.functions d'.functions
  sources : List.Forall₂ R.source d.sources d'.sources
  next : ∀ k, R.sites (d.nextSite + k) (d'.nextSite + k)

/-- Two parsed files, with their drafts, that differ in their sites only. -/
structure ReadAlike (R : Likeness) (r r' : Statement × Draft) : Prop where
  body : Statement.Alike R r.1 r'.1
  draft : Draft.Alike R r.2 r'.2

variable {R : Likeness}

/-- Lists of alike statements are alike statements. -/
theorem Statement.Alike.ofList {statements statements' : List Statement}
    (h : List.Forall₂ (Statement.Alike R) statements statements') :
    Statement.Alike R (.ofList statements) (.ofList statements') := by
  cases h with
  | nil => exact .nothing
  | cons hd ht =>
    cases ht with
    | nil => exact hd
    | cons hd' ht' => exact .block (.cons hd (.cons hd' ht'))

/-- The branches of two conditions are alike. -/
def BranchesAlike (R : Likeness) : List (Expr × Statement) → List (Expr × Statement) → Prop :=
  List.Forall₂ fun b b' => b.1 = b'.1 ∧ Statement.Alike R b.2 b'.2

/-- One more branch that is alike. -/
theorem BranchesAlike.concat {earlier earlier' : List (Expr × Statement)}
    (h : BranchesAlike R earlier earlier') (test : Expr) {body body' : Statement}
    (hbody : Statement.Alike R body body') :
    BranchesAlike R (earlier ++ [(test, body)]) (earlier' ++ [(test, body')]) :=
  List.rel_append h (.cons ⟨rfl, hbody⟩ .nil)

/-- Alike branches make alike conditionals. -/
theorem Statement.Alike.ofBranches {branches branches' : List (Expr × Statement)}
    (h : BranchesAlike R branches branches') {last last' : Statement}
    (hlast : Statement.Alike R last last') :
    Statement.Alike R (.ofBranches branches last) (.ofBranches branches' last') := by
  induction h with
  | nil => exact hlast
  | @cons b b' _ _ hd _ ih =>
    have hcond := Statement.Alike.condition b.1 hd.2 ih
    unfold Statement.ofBranches
    rw [List.foldr_cons, List.foldr_cons, ← hd.1]
    exact hcond

/-! ### Open blocks -/

/-- Two open blocks of one kind, with alike parts. -/
inductive Opener.Alike (R : Likeness) : Opener → Opener → Prop where
  | branch (row : Nat) {earlier earlier' : List (Expr × Statement)} (test : Expr) :
      BranchesAlike R earlier earlier' →
      Opener.Alike R (.branch row earlier test) (.branch row earlier' test)
  | otherwise (row : Nat) {branches branches' : List (Expr × Statement)} :
      BranchesAlike R branches branches' →
      Opener.Alike R (.otherwise row branches) (.otherwise row branches')
  | loop (row : Nat) (head : LoopHead) : Opener.Alike R (.loop row head) (.loop row head)
  | loopOtherwise (row : Nat) (head : LoopHead) {body body' : Statement} :
      Statement.Alike R body body' →
      Opener.Alike R (.loopOtherwise row head body) (.loopOtherwise row head body')
  | switch (row : Nat) (subject : Expr) :
      Opener.Alike R (.switch row subject) (.switch row subject)
  | case (row : Nat) (subject : Expr) {earlier earlier' : List Case}
      {fallback fallback' : Option Statement} (values : List Expr) :
      List.Forall₂ (Case.Alike R) earlier earlier' →
      Option.Rel (Statement.Alike R) fallback fallback' →
      Opener.Alike R (.case row subject earlier fallback values)
        (.case row subject earlier' fallback' values)
  | default (row : Nat) (subject : Expr) {earlier earlier' : List Case} :
      List.Forall₂ (Case.Alike R) earlier earlier' →
      Opener.Alike R (.default row subject earlier) (.default row subject earlier')
  | define (row : Nat) (name : String) (parameters : List String) :
      Opener.Alike R (.define row name parameters) (.define row name parameters)
  | custom (row : Nat) (name : String) {directive : Directive} (args : List Expr) :
      R.directive directive →
      Opener.Alike R (.custom row name directive args) (.custom row name directive args)

/-- Two open blocks with what stands in front of them. -/
def LayersAlike (R : Likeness) :
    List (Opener × List Statement) → List (Opener × List Statement) → Prop :=
  List.Forall₂ fun e e' => Opener.Alike R e.1 e'.1 ∧ List.Forall₂ (Statement.Alike R) e.2 e'.2

/-- What has been read of two files is alike. -/
structure Blocks.Alike (R : Likeness) (b b' : Blocks) : Prop where
  stack : LayersAlike R b.stack b'.stack
  current : List.Forall₂ (Statement.Alike R) b.current b'.current

/-- What has been read of two files, and their drafts, are alike. -/
def ProgressAlike (R : Likeness) (s s' : Blocks × Draft) : Prop :=
  Blocks.Alike R s.1 s'.1 ∧ Draft.Alike R s.2 s'.2

theorem Opener.Alike.row_eq {o o' : Opener} (h : Opener.Alike R o o') : o.row = o'.row := by
  cases h <;> rfl

theorem Opener.Alike.isLoop_eq {o o' : Opener} (h : Opener.Alike R o o') :
    o.isLoop = o'.isLoop := by
  cases h <;> rfl

/-- Alike stacks both have an open loop or both none. -/
theorem LayersAlike.any_isLoop_eq {stack stack' : List (Opener × List Statement)}
    (h : LayersAlike R stack stack') :
    stack.any (·.1.isLoop) = stack'.any (·.1.isLoop) := by
  induction h with
  | nil => rfl
  | cons hd _ ih => rw [List.any_cons, List.any_cons, hd.1.isLoop_eq, ih]

namespace Blocks.Alike

variable {b b' : Blocks}

theorem empty : Blocks.Alike R {} {} := ⟨.nil, .nil⟩

theorem append (h : Blocks.Alike R b b') {s s' : Statement} (hs : Statement.Alike R s s') :
    Blocks.Alike R (b.append s) (b'.append s') := ⟨h.stack, .cons hs h.current⟩

theorem openBlock (h : Blocks.Alike R b b') {o o' : Opener} (ho : Opener.Alike R o o') :
    Blocks.Alike R (b.openBlock o) (b'.openBlock o') := ⟨.cons ⟨ho, h.current⟩ h.stack, .nil⟩

theorem body (h : Blocks.Alike R b b') : Statement.Alike R b.body b'.body :=
  .ofList (List.rel_reverse h.current)

theorem isEmpty_eq (h : Blocks.Alike R b b') : b.stack.isEmpty = b'.stack.isEmpty := by
  cases b; cases b'
  cases h.stack <;> rfl

/-- A case is due in both of two alike blocks, or in none. -/
theorem awaitsCase_eq (h : Blocks.Alike R b b') : b.awaitsCase = b'.awaitsCase := by
  obtain ⟨stack, _⟩ := b
  obtain ⟨stack', _⟩ := b'
  cases h.stack with
  | nil => rfl
  | @cons e e' _ _ hd _ =>
    obtain ⟨o, _⟩ := e
    obtain ⟨o', _⟩ := e'
    obtain ⟨ho, _⟩ : Opener.Alike R o o' ∧ _ := hd
    -- alike openers are of one kind, so both wait for a case or neither does
    cases ho <;> rfl

/-- Both of two alike blocks are in a loop, or none is. -/
theorem insideLoop_eq (h : Blocks.Alike R b b') : b.insideLoop = b'.insideLoop :=
  h.stack.any_isLoop_eq

end Blocks.Alike

/-! ### Dividers -/

/-- The directives of a configuration may occur. -/
def Likeness.Allows (R : Likeness) (config : Config) : Prop :=
  ∀ name directive, config.directives.get? name = some directive → R.directive directive

/-- The directives of a configuration may occur, and what is opened from the files may be read for
itself. -/
structure Likeness.Covers (R : Likeness) (config : Config) (files : Files) : Prop where
  directives : R.Allows config
  opened : ∀ name source, files.openSource config.settings.basePath name = .ok source →
    R.source source source

/-- Included files are parsed alike. -/
def NestedAlike (R : Likeness) (n n' : Source → Draft → Except Error (Statement × Draft)) : Prop :=
  ∀ {source} {draft draft' : Draft}, R.source source source → Draft.Alike R draft draft' →
    Agree (ReadAlike R) (n source draft) (n' source draft')

namespace Parsing

variable {p : Parsing} {b b' : Blocks} {draft draft' : Draft}

/-- A case opens alike in alike switches. -/
theorem openCase_alike (row : Nat) (parameters : String) (switchRow : Nat) (subject : Expr)
    {earlier earlier' : List Case}
    (hearlier : List.Forall₂ (Case.Alike R) earlier earlier')
    {fallback fallback' : Option Statement}
    (hfallback : Option.Rel (Statement.Alike R) fallback fallback')
    {before before' : List Statement} (hbefore : List.Forall₂ (Statement.Alike R) before before')
    {rest rest' : List (Opener × List Statement)} (hrest : LayersAlike R rest rest') :
    Agree (Blocks.Alike R)
      (p.openCase b row parameters switchRow subject earlier fallback before rest)
      (p.openCase b' row parameters switchRow subject earlier' fallback' before' rest') := by
  unfold openCase
  refine Agree.after fun values => ?_
  split
  · exact .error _
  · exact .ok ⟨.cons ⟨.case switchRow subject values hearlier hfallback, hbefore⟩ hrest, .nil⟩

/-- A divider has the same effect on alike blocks. -/
theorem divide_alike (hb : Blocks.Alike R b b') (hd : Draft.Alike R draft draft') (row : Nat)
    (divider : Divider) :
    Agree (ProgressAlike R) (p.divide b draft row divider) (p.divide b' draft' row divider) := by
  obtain ⟨stack, current⟩ := b
  obtain ⟨stack', current'⟩ := b'
  have hbody := hb.body
  obtain ⟨hstack, hcurrent⟩ := hb
  cases hstack with
  | nil => exact .error _
  | @cons e e' rest rest' hlayer hrest =>
    obtain ⟨opener, before⟩ := e
    obtain ⟨opener', before'⟩ := e'
    obtain ⟨hopener, hbefore⟩ : Opener.Alike R opener opener' ∧
      List.Forall₂ (Statement.Alike R) before before' := hlayer
    -- The two ways to go on: close the block as a statement, or open its next part.
    have hclose : ∀ {s s' : Statement}, Statement.Alike R s s' →
        Agree (ProgressAlike R) (.ok (⟨rest, s :: before⟩, draft) : Except Error _)
          (.ok (⟨rest', s' :: before'⟩, draft')) :=
      fun hs => .ok ⟨⟨hrest, .cons hs hbefore⟩, hd⟩
    have hreopen : ∀ {o o' : Opener}, Opener.Alike R o o' →
        Agree (ProgressAlike R) (.ok (⟨(o, before) :: rest, []⟩, draft) : Except Error _)
          (.ok (⟨(o', before') :: rest', []⟩, draft')) :=
      fun ho => .ok ⟨⟨.cons ⟨ho, hbefore⟩ hrest, .nil⟩, hd⟩
    -- Which divider may follow depends on how the block was opened.
    cases hopener with
    -- a branch: the next branch needs a test, and `#end` closes all branches as one conditional
    | branch openRow test hearlier =>
      cases divider with
      | «end» => exact hclose (.ofBranches (hearlier.concat test hbody) .nothing)
      | «else» => exact hreopen (.otherwise row (hearlier.concat test hbody))
      | «elseif» parameters =>
        exact Agree.after fun next => hreopen (.branch row next (hearlier.concat test hbody))
      | case _ => exact .error _
      | default => exact .error _
    | otherwise openRow hbranches =>
      cases divider with
      | «end» => exact hclose (.ofBranches hbranches hbody)
      | _ => exact .error _
    | loop openRow head =>
      cases divider with
      | «end» => exact hclose (.loop head hbody .nothing)
      | «else» => exact hreopen (.loopOtherwise row head hbody)
      | _ => exact .error _
    | loopOtherwise openRow head hloop =>
      cases divider with
      | «end» => exact hclose (.loop head hloop hbody)
      | _ => exact .error _
    -- a switch without sections so far
    | switch switchRow subject =>
      cases divider with
      | «end» => exact hclose (.switch subject .nil .nothing)
      | case parameters =>
        exact (openCase_alike row parameters switchRow subject .nil .none hbefore hrest).bind
          fun _ _ hopened => .ok ⟨hopened, hd⟩
      | default => exact hreopen (.default switchRow subject .nil)
      | «else» => exact .error _
      | «elseif» _ => exact .error _
    -- a case, which joins those before it
    | case switchRow subject values hearlier hfallback =>
      have hcases := List.rel_append hearlier (.cons (.mk values hbody) .nil)
      cases divider with
      | «end» =>
        refine hclose (.switch subject hcases ?_)
        cases hfallback with
        | none => exact .nothing
        | some h => exact h
      | case parameters =>
        exact (openCase_alike row parameters switchRow subject hcases hfallback hbefore hrest).bind
          fun _ _ hopened => .ok ⟨hopened, hd⟩
      | default =>
        cases hfallback with
        | none => exact hreopen (.default switchRow subject hcases)
        | some _ => exact .error _
      | «else» => exact .error _
      | «elseif» _ => exact .error _
    -- a default, behind which only cases may follow
    | default switchRow subject hearlier =>
      cases divider with
      | «end» => exact hclose (.switch subject hearlier hbody)
      | case parameters =>
        exact (openCase_alike row parameters switchRow subject hearlier (.some hbody) hbefore
          hrest).bind fun _ _ hopened => .ok ⟨hopened, hd⟩
      | default => exact .error _
      | «else» => exact .error _
      | «elseif» _ => exact .error _
    -- a definition: its function is inserted in both drafts
    | define openRow name parameters =>
      cases divider with
      | «end» =>
        exact .ok ⟨⟨hrest, .cons (.definition name) hbefore⟩,
          hd.functions.insert name ⟨rfl, rfl, rfl, hbody⟩, hd.sources, hd.next⟩
      | _ => exact .error _
    | custom openRow name args hdirective =>
      cases divider with
      | «end» => exact hclose (.custom args _ hdirective hbody)
      | _ => exact .error _

/-! ### Directives -/

/-- An `#include` reads alike if the included file does. -/
theorem includeFile_alike {n n' : Source → Draft → Except Error (Statement × Draft)}
    (hp : R.Covers p.config p.files) (hn : NestedAlike R n n') (row : Nat) (parameters : String)
    (hd : Draft.Alike R draft draft') :
    Agree (ReadAlike R) (({ p with nested := n } : Parsing).includeFile row parameters draft)
      (({ p with nested := n' } : Parsing).includeFile row parameters draft') := by
  unfold includeFile
  refine Agree.after fun target => ?_
  obtain ⟨name, assignments⟩ := target
  refine Agree.after_ok fun source hopened => ?_
  have hnested : Agree (ReadAlike R)
      (n source draft >>= fun r => .ok (.inlined assignments r.1, r.2))
      (n' source draft' >>= fun r => .ok (.inlined assignments r.1, r.2)) :=
    (hn (hp.opened _ _ hopened) hd).bind fun _ _ hr => .ok ⟨.inlined assignments hr.body, hr.draft⟩
  -- a file that is being read may not be included again, and it is the same file in both
  cases source.fileName? with
  | none => exact hnested
  | some file =>
    dsimp only
    split
    · exact .error _
    · exact hnested

/-- A custom directive has the same effect on alike blocks. -/
theorem customDirective_alike (hallows : R.Allows p.config) (hb : Blocks.Alike R b b')
    (id parameters : String) (row : Nat) :
    Agree (Blocks.Alike R) (p.customDirective b id parameters row)
      (p.customDirective b' id parameters row) := by
  unfold customDirective
  cases hget : p.config.directives.get? id with
  | none => exact .error _
  | some directive =>
    have hdirective := hallows id directive hget
    refine Agree.after fun args => ?_
    -- with a body the directive opens a block, without one it is a statement
    split
    · exact .ok (hb.openBlock (.custom row id args hdirective))
    · exact .ok (hb.append (.custom args _ hdirective .nothing))

/-- A call is made up alike. -/
theorem callOf_alike (row : Nat) (ifDefined : Bool) (es : List Expr) :
    Agree (Statement.Alike R) (p.callOf row ifDefined es) (p.callOf row ifDefined es) := by
  unfold callOf
  split
  · exact .error _
  · exact .ok (.call _ _ _ _)
  · exact .ok (.call _ _ _ _)

/-- The parser of a file with other files around it. -/
def among (p : Parsing) (files : Files) (nested : Source → Draft → Except Error (Statement × Draft)) :
    Parsing := { p with files, nested }

variable {f f' : Files} {n n' : Source → Draft → Except Error (Statement × Draft)}

/-- A directive has the same effect on alike blocks, if it is no `#include` or if what it includes
is read alike. -/
theorem directive_alike (hallows : R.Allows p.config) (hb : Blocks.Alike R b b')
    (hd : Draft.Alike R draft draft') (id parameters : String) (row : Nat)
    (hinclude : id = "include" → Agree (ReadAlike R)
      ((p.among f n).includeFile row parameters draft)
      ((p.among f' n').includeFile row parameters draft')) :
    Agree (ProgressAlike R) ((p.among f n).directive b draft id parameters row)
      ((p.among f' n').directive b' draft' id parameters row) := by
  have happend : ∀ {s s' : Statement}, Statement.Alike R s s' →
      Agree (ProgressAlike R) (.ok (b.append s, draft) : Except Error _)
        (.ok (b'.append s', draft')) :=
    fun hs => .ok ⟨hb.append hs, hd⟩
  have hopen : ∀ {o o' : Opener}, Opener.Alike R o o' →
      Agree (ProgressAlike R) (.ok (b.openBlock o, draft) : Except Error _)
        (.ok (b'.openBlock o', draft')) :=
    fun ho => .ok ⟨hb.openBlock ho, hd⟩
  unfold directive
  split
  · exact Agree.after fun test => hopen (.branch row test .nil)
  · exact Agree.after fun head => hopen (.loop row head)
  · exact Agree.after fun subject => hopen (.switch row subject)
  · exact Agree.after fun value => happend (.output value)
  · exact (hinclude rfl).bind fun _ _ hr => .ok ⟨hb.append hr.body, hr.draft⟩
  · refine Agree.after fun target => ?_
    -- The one place where a site gets its number.
    have hsite : R.sites draft.nextSite draft'.nextSite := hd.next 0
    refine .ok ⟨hb.append (.render _ _ _ hsite), hd.functions, hd.sources, fun k => ?_⟩
    have hnext := hd.next (1 + k)
    rwa [← Nat.add_assoc, ← Nat.add_assoc] at hnext
  · exact Agree.after fun es => (callOf_alike row false es).bind fun _ _ hcall => happend hcall
  · exact Agree.after fun es => (callOf_alike row true es).bind fun _ _ hcall => happend hcall
  · rw [hb.insideLoop_eq]
    split
    · exact happend (.jump _)
    · exact .error _
  · rw [hb.insideLoop_eq]
    split
    · exact happend (.jump _)
    · exact .error _
  · exact happend (.jump _)
  · split
    · refine Agree.after fun assignments => ?_
      split
      · exact .error _
      · exact happend (.assign _ _)
    · exact (customDirective_alike hallows hb id parameters row).bind fun _ _ hr => .ok ⟨hr, hd⟩

/-! ### Whole files -/

/-- A definition opens alike in alike blocks. -/
theorem define_alike (hb : Blocks.Alike R b b') (hd : Draft.Alike R draft draft')
    (name parameters : String) (row : Nat) :
    Agree (Blocks.Alike R) (p.define b draft name parameters row)
      (p.define b' draft' name parameters row) := by
  unfold define
  rw [hb.isEmpty_eq, hd.functions.contains_eq]
  split
  · exact .error _
  · split
    · exact .error _
    · exact Agree.after fun names => .ok (hb.openBlock (.define row name names))

/-- A text is added alike to alike blocks. -/
theorem literal_alike (hb : Blocks.Alike R b b') (chars : List Char) :
    Blocks.Alike R (p.literal b chars) (p.literal b' chars) := by
  have hkept : ∀ kept : List Char,
      Blocks.Alike R (if kept.isEmpty then b else b.append (.text (String.ofList kept)))
        (if kept.isEmpty then b' else b'.append (.text (String.ofList kept))) := by
    intro kept
    split
    · exact hb
    · exact hb.append (.text _)
  exact hkept _

/-- A tag has the same effect on alike blocks, if what it includes is read alike. -/
theorem addTag_alike (hallows : R.Allows p.config) (hb : Blocks.Alike R b b')
    (hd : Draft.Alike R draft draft') (tag : Tag) (row : Nat)
    (hinclude : ∀ parameters, tag = .directive "include" parameters → Agree (ReadAlike R)
      ((p.among f n).includeFile row (parameters.getD "") draft)
      ((p.among f' n').includeFile row (parameters.getD "") draft')) :
    Agree (ProgressAlike R) ((p.among f n).addTag b draft tag row)
      ((p.among f' n').addTag b' draft' tag row) := by
  unfold addTag
  -- dividers, then tags where a case is due, then all others
  cases Divider.ofTag? tag with
  | some divider => exact divide_alike hb hd row divider
  | none =>
    dsimp only
    rw [hb.awaitsCase_eq]
    split
    · exact .error _
    · cases tag with
      | directive id parameters =>
        refine directive_alike hallows hb hd id _ row ?_
        rintro rfl
        exact hinclude parameters rfl
      | call name ifDefined parameters =>
        exact Agree.after fun args => .ok ⟨hb.append (.call _ args _ _), hd⟩
      | define name parameters =>
        exact (define_alike hb hd name parameters row).bind fun _ _ hr => .ok ⟨hr, hd⟩

/-- An item has the same effect on alike blocks, if what it includes is read alike. -/
theorem add_alike (hallows : R.Allows p.config) (hb : Blocks.Alike R b b')
    (hd : Draft.Alike R draft draft') (item : Item)
    (hinclude : ∀ parameters row, item = .tag (.directive "include" parameters) row →
      Agree (ReadAlike R) ((p.among f n).includeFile row (parameters.getD "") draft)
        ((p.among f' n').includeFile row (parameters.getD "") draft')) :
    Agree (ProgressAlike R) ((p.among f n).add b draft item)
      ((p.among f' n').add b' draft' item) := by
  unfold add
  cases item with
  | text chars row =>
    dsimp only
    rw [hb.awaitsCase_eq]
    split
    -- text is refused in both blocks or in none
    · split
      · exact .ok ⟨hb, hd⟩
      · exact .error _
    · exact .ok ⟨literal_alike hb chars, hd⟩
  | tag tag row =>
    refine addTag_alike hallows hb hd tag row fun parameters htag => ?_
    rw [htag] at hinclude
    exact hinclude parameters row rfl

/-- If the items of a file are added alike, the file is read alike. -/
theorem parseItems_of_addAll {items : List Item}
    (h : Agree (ProgressAlike R) ((p.among f n).addAll {} draft items)
      ((p.among f' n').addAll {} draft' items)) :
    Agree (ReadAlike R) ((p.among f n).parseItems draft items)
      ((p.among f' n').parseItems draft' items) := by
  refine h.bind fun s s' hs => ?_
  obtain ⟨⟨stack, current⟩, draft⟩ := s
  obtain ⟨⟨stack', current'⟩, draft'⟩ := s'
  obtain ⟨hb, hd⟩ := hs
  have hbody := hb.body
  have hstack := hb.stack
  -- A block that is left open is reported with the row that it was opened at.
  cases hstack with
  | nil => exact .ok ⟨hbody, hd⟩
  | @cons e e' _ _ hlayer _ =>
    have hrow : e.1.row = e'.1.row := hlayer.1.row_eq
    dsimp only
    rw [hrow]
    exact .error _

/-- Items have the same effect on alike blocks, one after the other. -/
theorem addAll_alike (hp : R.Covers p.config f) (hn : NestedAlike R n n') (items : List Item)
    (hb : Blocks.Alike R b b') (hd : Draft.Alike R draft draft') :
    Agree (ProgressAlike R) ((p.among f n).addAll b draft items)
      ((p.among f n').addAll b' draft' items) := by
  induction items generalizing b b' draft draft' with
  | nil => exact .ok ⟨hb, hd⟩
  | cons item rest ih =>
    have hadd : Agree (ProgressAlike R) ((p.among f n).add b draft item)
        ((p.among f n').add b' draft' item) :=
      add_alike hp.directives hb hd item fun parameters row _ =>
        includeFile_alike (p := p.among f n) hp hn row (parameters.getD "") hd
    exact hadd.bind fun _ _ hr => ih hr.1 hr.2

/-- The items of a file are parsed alike. -/
theorem parseItems_alike (hp : R.Covers p.config f) (hn : NestedAlike R n n')
    (hd : Draft.Alike R draft draft') (items : List Item) :
    Agree (ReadAlike R) ((p.among f n).parseItems draft items)
      ((p.among f n').parseItems draft' items) :=
  parseItems_of_addAll (addAll_alike hp hn items .empty hd)

end Parsing

/-- A file is parsed alike from alike drafts. -/
theorem parseFile_alike {config : Config} {files : Files} (hp : R.Covers config files)
    (depth : Nat) (opened : List String) : NestedAlike R (parseFile config files depth opened)
      (parseFile config files depth opened) := by
  -- By induction on the nesting of includes: the included files are one level down.
  induction depth generalizing opened with
  | zero => exact fun _ _ => .error _
  | succ depth ih =>
    intro source draft draft' hsource hd
    have hdraft : Draft.Alike R { draft with sources := draft.sources ++ [source] }
        { draft' with sources := draft'.sources ++ [source] } :=
      ⟨hd.functions, List.rel_append hd.sources (.cons hsource .nil), hd.next⟩
    unfold parseFile
    refine Agree.after fun content => ?_
    cases itemsOf config.keep content.toList with
    | error e => exact .error _
    | ok items =>
      let nested := parseFile config files depth (source.fileName?.toList ++ opened)
      let parsing : Parsing :=
        { config, files, file := source.fileName?, opened := source.fileName?.toList ++ opened
          nested }
      exact Parsing.parseItems_alike (p := parsing) hp (ih _) hdraft items

/-- Compiling a source again, with its sites numbered from another number on. -/
theorem compile_alike_next {config : Config} {files : Files} (hp : R.Covers config files)
    {source : Source} (hsource : R.source source source) {first first' : Nat}
    (hsites : ∀ k, R.sites (first + k) (first' + k)) :
    Agree (fun r r' => Compiled.Alike R r.1 r'.1 ∧ ∀ k, R.sites (r.2 + k) (r'.2 + k))
      (compile config files source first) (compile config files source first') := by
  unfold compile
  have hdraft : Draft.Alike R { nextSite := first } { nextSite := first' } := ⟨.nil, .nil, hsites⟩
  exact (parseFile_alike hp _ [] hsource hdraft).bind
    fun _ _ hr => .ok ⟨⟨hr.body, hr.draft.functions, hr.draft.sources⟩, hr.draft.next⟩

/-- **Numbering does not matter.** What a source is compiled to depends on the number of its first
site only up to likeness; the compiled template holds no directive but those of the configuration,
and what is read for it beside the source itself is opened from the files. -/
theorem compile_alike {config : Config} {files : Files} (hp : R.Covers config files)
    {source : Source} (hsource : R.source source source) {first first' : Nat}
    (hsites : ∀ k, R.sites (first + k) (first' + k)) :
    Agree (fun r r' => Compiled.Alike R r.1 r'.1) (compile config files source first)
      (compile config files source first') :=
  (compile_alike_next hp hsource hsites).imp fun _ _ h => h.1

end Stencil
