import Stencil.Proofs.Template.Definitions
import Stencil.Proofs.Template.Likeness

/-!
# Why compilations fail

A compilation fails with a parse error, or because a source that it needs cannot be opened or read
(`parseFile_ends`). A source is needed if it is compiled itself, or if a needed source includes it.

Every function of the parser has one statement here, which says how it ends (`Ends`). What a divider
does to the open blocks if it goes well is part of its statement (`Parsing.divide_ends`).

Main definitions: `Ends`, `Turned`, `Unreadable`.
Main statements: `Parsing.divide_ends`, `compile_ends`.
-/

namespace Stencil

/-! ### How computations end -/

/-- How a computation ends: well with a result of one kind, or with an error of another one. -/
def Ends {α : Type} (P : α → Prop) (E : Error → Prop) : Except Error α → Prop
  | .ok a => P a
  | .error e => E e

namespace Ends

variable {α β : Type} {P : α → Prop} {Q : β → Prop} {E : Error → Prop}

theorem ok {a : α} (h : P a) : Ends P E (.ok a) := h

/-- Two steps end as said if the first does, and the second does after it. -/
theorem bind {x : Except Error α} {f : α → Except Error β} (hx : Ends P E x)
    (hf : ∀ {a}, P a → Ends Q E (f a)) : Ends Q E (x >>= f) := by
  cases x with
  | ok a => exact hf hx
  | error e => exact hx

theorem of_ok {x : Except Error α} (h : Ends P E x) {a : α} (ha : x = .ok a) : P a := by
  rwa [ha] at h

theorem of_error {x : Except Error α} (h : Ends P E x) {e : Error} (he : x = .error e) : E e := by
  rwa [he] at h

/-- Weaker properties. -/
theorem imp {P' : α → Prop} {E' : Error → Prop} {x : Except Error α} (h : Ends P E x)
    (hP : ∀ {a}, P a → P' a) (hE : ∀ {e}, E e → E' e) : Ends P' E' x := by
  cases x with
  | ok a => exact hP h
  | error e => exact hE h

end Ends

/-- An error that is one of parsing. -/
def Error.IsParse (e : Error) : Prop := ∃ fault, e = .parse fault

/-- A failure to parse an expression is a failure to parse. -/
theorem Ends.mapError {α : Type} (x : Except ParseError α) :
    Ends (fun _ => True) Error.IsParse (x.mapError .parse) := by
  cases x with
  | ok a => exact trivial
  | error e => exact ⟨e, rfl⟩

/-! ### Dividers -/

/-- The function that a block defines. -/
def Opener.defines? : Opener → Option String
  | .define _ name _ => some name
  | _ => none

/-- The open blocks, with the functions that they define. -/
def Blocks.opened (b : Blocks) : List (Option String) := b.stack.map (·.1.defines?)

/-- What a divider does to the open blocks, by the functions that they define, and to the functions
that are known: a function is known from the end of its definition on. -/
inductive Turned (divider : Divider) : List (Option String) → Assoc TemplateFunction →
    List (Option String) → Assoc TemplateFunction → Prop
  | part {blocks : List (Option String)} {known : Assoc TemplateFunction} :
      divider ≠ .end → Turned divider blocks known blocks known
  | close {blocks : List (Option String)} {known : Assoc TemplateFunction} :
      divider = .end → Turned divider (none :: blocks) known blocks known
  | define {blocks : List (Option String)} {known : Assoc TemplateFunction} {name : String}
      {function : TemplateFunction} : divider = .end →
      Turned divider (some name :: blocks) known blocks (known.insert name function)

namespace Parsing

variable {p : Parsing} {b : Blocks} {draft : Draft}

/-- An error at a row of the file is a failure to parse. -/
theorem errorAt_ends {α : Type} {P : α → Prop} (row : Nat) (fault : ParseFault) :
    Ends P Error.IsParse (p.errorAt row fault : Except Error α) := ⟨_, rfl⟩

/-- Expressions that cannot be read are a failure to parse. -/
theorem exprs_ends (row : Nat) (parameters : String) :
    Ends (fun _ => True) Error.IsParse (p.exprs row parameters) := by
  unfold exprs
  cases parseExprs p.file row parameters with
  | ok es => exact trivial
  | error e => exact ⟨e, rfl⟩

/-- A single expression that cannot be read is a failure to parse. -/
theorem singleExpr_ends (row : Nat) (parameters directive : String) :
    Ends (fun _ => True) Error.IsParse (p.singleExpr row parameters directive) := by
  refine (exprs_ends row parameters).bind fun {es} _ => ?_
  split
  · exact trivial
  · exact ⟨_, rfl⟩
  · exact ⟨_, rfl⟩

/-- A case fails as a part of the text that cannot be parsed, and defines no function. -/
theorem openCase_ends (row : Nat) (parameters : String) (switchRow : Nat) (subject : Expr)
    (earlier : List Case) (fallback : Option Statement) (before : List Statement)
    (rest : List (Opener × List Statement)) :
    Ends (fun b' => b'.opened = none :: rest.map (·.1.defines?)) Error.IsParse
      (p.openCase b row parameters switchRow subject earlier fallback before rest) := by
  refine (exprs_ends row parameters).bind fun {values} _ => ?_
  split
  · exact ⟨_, rfl⟩
  · exact rfl

/-- `#end` closes the innermost block, and other dividers keep it open. -/
theorem divide_ends (row : Nat) (divider : Divider) :
    Ends (fun r => Turned divider b.opened draft.functions r.1.opened r.2.functions) Error.IsParse
      (p.divide b draft row divider) := by
  obtain ⟨_ | ⟨⟨opener, before⟩, rest⟩, current⟩ := b
  · exact errorAt_ends row _
  · -- A divider closes a block, or opens its next part, perhaps after reading expressions, or it is
    -- misplaced. Only the end of a definition changes what is known.
    cases opener <;> cases divider
    all_goals first
      | exact errorAt_ends row _
      | exact .ok (.define rfl)
      | exact .ok (.close rfl)
      | exact .ok (.part nofun)
      | exact (singleExpr_ends ..).bind fun _ => .ok (.part nofun)
      | exact (openCase_ends ..).bind fun h => .ok (h ▸ .part nofun)
      | skip
    · rename_i fallback _
      cases fallback with
      | none => exact .ok (.part nofun)
      | some _ => exact errorAt_ends row _

/-! ### Directives -/

/-- The target of an `#include` is the file that it includes. -/
theorem included?_of_target {p : Parsing} {parameters : Option String} {row : Nat} {name : String}
    {assignments : List Expr}
    (h : p.target row (parameters.getD "") "#include" = .ok (name, assignments)) :
    (Item.tag (.directive "include" parameters) row).included? p.file = some name := by
  obtain ⟨es, hes, h⟩ := bind_eq_ok_iff.mp h
  rw [Item.included?, mapError_eq_ok_iff.mp hes]
  split at h
  · split at h
    · rw [← (Prod.mk.inj (Except.ok.inj h)).1]
    · cases h
  · cases h

/-- A target that cannot be read is a failure to parse. -/
theorem target_ends (row : Nat) (parameters directive : String) :
    Ends (fun _ => True) Error.IsParse (p.target row parameters directive) := by
  refine (exprs_ends row parameters).bind fun {es} _ => ?_
  split
  · split
    · exact trivial
    · exact ⟨_, rfl⟩
  · exact ⟨_, rfl⟩

/-- A call that cannot be made is a failure to parse. -/
theorem callOf_ends (row : Nat) (ifDefined : Bool) (es : List Expr) :
    Ends (fun _ => True) Error.IsParse (p.callOf row ifDefined es) := by
  unfold callOf
  split
  · exact ⟨_, rfl⟩
  · exact trivial
  · exact trivial

/-- A custom directive fails as a part of the text that cannot be parsed. -/
theorem customDirective_ends (id parameters : String) (row : Nat) :
    Ends (fun _ => True) Error.IsParse (p.customDirective b id parameters row) := by
  unfold customDirective
  split
  · exact ⟨_, rfl⟩
  · refine (exprs_ends row parameters).bind fun _ => ?_
    split <;> exact trivial

/-- A definition fails as a part of the text that cannot be parsed. -/
theorem define_ends (name parameters : String) (row : Nat) :
    Ends (fun _ => True) Error.IsParse (p.define b draft name parameters row) := by
  unfold define
  split
  · exact ⟨_, rfl⟩
  · split
    · exact ⟨_, rfl⟩
    · exact (Ends.mapError _).bind fun _ => trivial

/-- A directive that includes nothing fails as a part of the text that cannot be parsed. -/
theorem directive_ends {id : String} (parameters : String) (row : Nat) (hid : id ≠ "include") :
    Ends (fun _ => True) Error.IsParse (p.directive b draft id parameters row) := by
  unfold directive
  split
  -- in the order of the directives, which the expressions they read may make fail
  · exact (singleExpr_ends ..).bind fun _ => trivial
  · exact (Ends.mapError _).bind fun _ => trivial
  · exact (singleExpr_ends ..).bind fun _ => trivial
  · exact (singleExpr_ends ..).bind fun _ => trivial
  · exact absurd rfl hid
  · exact (target_ends ..).bind fun _ => trivial
  · exact (exprs_ends ..).bind fun _ => (callOf_ends ..).bind fun _ => trivial
  · exact (exprs_ends ..).bind fun _ => (callOf_ends ..).bind fun _ => trivial
  -- outside of loops
  · split
    · exact trivial
    · exact ⟨_, rfl⟩
  · split
    · exact trivial
    · exact ⟨_, rfl⟩
  · exact trivial
  · split
    · refine (exprs_ends ..).bind fun _ => ?_
      split
      · exact ⟨_, rfl⟩
      · exact trivial
    · exact (customDirective_ends ..).bind fun _ => trivial

section

variable {E : Error → Prop}

/-- An `#include` fails as a part of the text that cannot be parsed, or as the file that it
names. -/
theorem includeFile_ends (hparse : ∀ {e : Error}, e.IsParse → E e) {parameters : Option String}
    {row : Nat}
    (hopening : ∀ {name e}, (Item.tag (.directive "include" parameters) row).included? p.file =
      some name → p.files.openSource p.config.settings.basePath name = .error e → E e)
    (hinside : ∀ {name source e}, (Item.tag (.directive "include" parameters) row).included?
      p.file = some name → p.files.openSource p.config.settings.basePath name = .ok source →
      p.nested source draft = .error e → E e) :
    Ends (fun _ => True) E (p.includeFile row (parameters.getD "") draft) := by
  -- the name of the file is that of the tag, or the tag cannot be parsed
  have htarget : Ends (fun target => (Item.tag (.directive "include" parameters) row).included?
      p.file = some target.1) E (p.target row (parameters.getD "") "#include") := by
    cases h : p.target row (parameters.getD "") "#include" with
    | ok target => exact included?_of_target h
    | error e => exact hparse ((target_ends ..).of_error h)
  refine htarget.bind fun {target} hincluded => ?_
  -- a file that is named is opened, or it is missing
  have hopen : Ends (fun source => p.files.openSource p.config.settings.basePath target.1 =
      .ok source) E (p.files.openSource p.config.settings.basePath target.1) := by
    cases h : p.files.openSource p.config.settings.basePath target.1 with
    | ok source => exact rfl
    | error e => exact hopening hincluded h
  refine hopen.bind fun {source} hsource => ?_
  -- what is in the file fails as it does by itself
  have hnested : Ends (fun _ => True) E (p.nested source draft) := by
    cases h : p.nested source draft with
    | ok r => exact trivial
    | error e => exact hinside hincluded hsource h
  split
  -- a file may be refused for standing in itself, with a parse error of its own
  · split
    · exact hparse ⟨_, rfl⟩
    · exact hnested.bind fun _ => trivial
  · exact hnested.bind fun _ => trivial

/-- An item fails as a part of the text that cannot be parsed, or as the file that it includes. -/
theorem add_ends (hparse : ∀ {e : Error}, e.IsParse → E e) {item : Item}
    (hopening : ∀ {name e}, item.included? p.file = some name →
      p.files.openSource p.config.settings.basePath name = .error e → E e)
    (hinside : ∀ {name source e}, item.included? p.file = some name →
      p.files.openSource p.config.settings.basePath name = .ok source →
      p.nested source draft = .error e → E e) :
    Ends (fun _ => True) E (p.add b draft item) := by
  cases item with
  | text chars row =>
    unfold add
    dsimp only
    -- text is out of place between a switch and its first case
    split
    · split
      · exact trivial
      · exact hparse ⟨_, rfl⟩
    · exact trivial
  | tag tag row =>
    change Ends _ E (p.addTag b draft tag row)
    unfold addTag
    split
    -- dividers, then directives, then calls and definitions
    · exact (divide_ends row _).imp (fun _ => trivial) hparse
    · split
      · exact hparse ⟨_, rfl⟩
      · split
        · rename_i id parameters _
          by_cases hid : id = "include"
          · subst hid
            exact (includeFile_ends hparse hopening hinside).bind fun _ => trivial
          · exact (directive_ends _ row hid).imp (fun _ => trivial) hparse
        · exact ((exprs_ends ..).imp id hparse).bind fun _ => trivial
        · exact ((define_ends ..).imp id hparse).bind fun _ => trivial

/-- A file fails as one of its items, or at a block that is not closed. -/
theorem parseItems_ends (hparse : ∀ {e : Error}, e.IsParse → E e) {items : List Item}
    (hopening : ∀ {item name e}, item ∈ items → item.included? p.file = some name →
      p.files.openSource p.config.settings.basePath name = .error e → E e)
    (hinside : ∀ {item name source draft e}, item ∈ items → item.included? p.file = some name →
      p.files.openSource p.config.settings.basePath name = .ok source →
      p.nested source draft = .error e → E e) :
    Ends (fun _ => True) E (p.parseItems draft items) := by
  -- by induction on the items, whatever has been read in front of them
  have hall : ∀ b draft, Ends (fun _ => True) E (p.addAll b draft items) := by
    induction items with
    | nil => exact fun _ _ => trivial
    | cons item rest ih =>
      intro b draft
      have hadd : Ends (fun _ => True) E (p.add b draft item) :=
        add_ends hparse (hopening (List.mem_cons_self ..)) (hinside (List.mem_cons_self ..))
      exact hadd.bind fun _ => ih (fun hmem => hopening (List.mem_cons_of_mem _ hmem))
        (fun hmem => hinside (List.mem_cons_of_mem _ hmem)) _ _
  refine (hall {} draft).bind fun {s} _ => ?_
  obtain ⟨b, draft⟩ := s
  dsimp only
  -- blocks may be left open at the end
  split
  · exact trivial
  · exact hparse ⟨_, rfl⟩

end

end Parsing

/-! ### Files -/

/-- A source includes the file of a name. -/
def Source.Includes (config : Config) (files : Files) (source : Source) (name : String) : Prop :=
  ∃ items item, source.items? config files = some items ∧ item ∈ items ∧
    item.included? source.fileName? = some name

/-- The error of a source that cannot be read, or that includes, directly or not, what cannot be
opened or read. -/
inductive Unreadable (config : Config) (files : Files) (e : Error) : Source → Prop
  | reading {source : Source} : source.content files = .error e → Unreadable config files e source
  | opening {source : Source} {name : String} : source.Includes config files name →
      files.openSource config.settings.basePath name = .error e → Unreadable config files e source
  | inside {source inner : Source} {name : String} : source.Includes config files name →
      files.openSource config.settings.basePath name = .ok inner →
      Unreadable config files e inner → Unreadable config files e source

/-- **Why a file fails.** By induction on the nesting of the files. -/
theorem parseFile_ends (config : Config) (files : Files) (depth : Nat) (opened : List String)
    (source : Source) (draft : Draft) :
    Ends (fun _ => True) (fun e => e.IsParse ∨ Unreadable config files e source)
      (parseFile config files depth opened source draft) := by
  induction depth generalizing opened source draft with
  | zero => exact .inl ⟨_, rfl⟩
  | succ depth ih =>
    -- a file that is open may still be unreadable
    have hcontent : Ends (fun content => source.content files = .ok content)
        (fun e => e.IsParse ∨ Unreadable config files e source) (source.content files) := by
      cases h : source.content files with
      | ok content => exact rfl
      | error e => exact .inr (.reading h)
    unfold parseFile
    refine hcontent.bind fun {content} hread => ?_
    dsimp only
    split
    · exact .inl ⟨_, rfl⟩
    · rename_i items hitems
      have hsource : source.items? config files = some items := by
        rw [Source.items?, hread]
        dsimp only
        rw [hitems]
      -- what fails in an included file fails for a reason of that file
      refine Parsing.parseItems_ends .inl (fun {item name e} hmem hincluded hopen => ?_)
        (fun {item name inner draft e} hmem hincluded hopen hnested => ?_)
      · exact .inr (.opening ⟨items, item, hsource, hmem, hincluded⟩ hopen)
      · exact ((ih _ inner draft).of_error hnested).imp_right fun hunreadable =>
          .inside ⟨items, item, hsource, hmem, hincluded⟩ hopen hunreadable

/-- **Why a compilation fails.** -/
theorem compile_ends (config : Config) (files : Files) (source : Source) (first : Nat) :
    Ends (fun _ => True) (fun e => e.IsParse ∨ Unreadable config files e source)
      (compile config files source first) :=
  (parseFile_ends config files _ [] source { nextSite := first }).bind fun _ => trivial

end Stencil
