import Stencil.Proofs.Template.Likeness
import Stencil.Proofs.Text.Words

/-!
# Templates with other literal text

Literal text passes through the parser without being looked at, except for a test whether it is
blank where a switch begins, and this test is made before the text is squeezed. So what a source is
compiled to with a separator is what it is compiled to without one, with every literal text
squeezed; and a source that does not compile with a separator does not compile without one either,
and for the same reason.

Main definitions: `Statement.mapText`, `Compiled.mapText`, `Config.withSeparator`.
Main statement: `compile_squeezed`.
-/

namespace Stencil

/-! ### Dictionaries with other values -/

namespace Assoc

variable {α β : Type}

/-- A dictionary with the same keys and other values. -/
def mapValues (g : α → β) (m : Assoc α) : Assoc β where
  entries := m.entries.map fun e => (e.1, g e.2)
  nodup := by
    rw [List.map_map]
    exact m.nodup

variable (g : α → β) (m : Assoc α)

/-- Without keys there are no values. -/
@[simp] theorem mapValues_empty : (empty : Assoc α).mapValues g = empty := rfl

/-- The keys stay. -/
@[simp] theorem keys_mapValues : (m.mapValues g).keys = m.keys := by
  simp [keys, mapValues]

/-- The same keys are there. -/
@[simp] theorem contains_mapValues (key : String) :
    (m.mapValues g).contains key = m.contains key := by
  rw [Bool.eq_iff_iff, contains_iff_mem_keys, contains_iff_mem_keys, keys_mapValues]

/-- The value under a key is the other value. -/
@[simp] theorem get?_mapValues (key : String) : (m.mapValues g).get? key = (m.get? key).map g := by
  change (m.entries.map fun e => (e.1, g e.2)).lookup key = (m.entries.lookup key).map g
  induction m.entries with
  | nil => rfl
  | cons e rest ih =>
    rw [List.map_cons, List.lookup_cons, List.lookup_cons]
    cases key == e.1 with
    | true => rfl
    | false => exact ih

/-- Writing a value and changing all values. -/
theorem write_map (key : String) (a : α) (l : List (String × α)) :
    write key (g a) (l.map fun e => (e.1, g e.2)) =
      (write key a l).map fun e => (e.1, g e.2) := by
  induction l with
  | nil => rfl
  | cons e rest ih =>
    obtain ⟨k, v⟩ := e
    by_cases hk : k = key
    · simp [write, hk]
    · simp [write, hk, ih]

/-- A dictionary is its entries. -/
@[ext] theorem ext {m m' : Assoc α} (h : m.entries = m'.entries) : m = m' := by
  cases m
  cases m'
  congr

/-- Inserting a value and changing all values. -/
@[simp] theorem insert_mapValues (key : String) (a : α) :
    (m.mapValues g).insert key (g a) = (m.insert key a).mapValues g :=
  ext (write_map g key a m.entries)

/-- Inserting values and changing all values. -/
@[simp] theorem insertAll_mapValues (l : List (String × α)) :
    (m.mapValues g).insertAll (l.map fun e => (e.1, g e.2)) = (m.insertAll l).mapValues g := by
  unfold insertAll
  induction l generalizing m with
  | nil => rfl
  | cons e rest ih =>
    rw [List.map_cons, List.foldl_cons, List.foldl_cons, insert_mapValues]
    exact ih (m.insert e.1 e.2)

/-- Erasing a key and changing all values. -/
@[simp] theorem erase_mapValues (key : String) :
    (m.mapValues g).erase key = (m.erase key).mapValues g := by
  refine ext ?_
  simp [erase, mapValues, List.filter_map, Function.comp_def]

end Assoc

/-- Two computations with equal results are equal. -/
theorem Agree.eq {ε α : Type} {x y : Except ε α} (h : Agree Eq x y) : x = y := by
  cases h with
  | ok hab => exact congrArg Except.ok hab
  | error e => rfl

/-- Two computations whose results are related by a function. -/
theorem Agree.eq_map {ε α β : Type} {g : α → β} {x : Except ε α} {y : Except ε β}
    (h : Agree (fun a b => b = g a) x y) : y = x.map g := by
  cases h with
  | ok hab => exact congrArg Except.ok hab
  | error e => rfl

/-- A result that is changed by a function. -/
theorem Agree.map {ε α β : Type} (g : α → β) (x : Except ε α) :
    Agree (fun a b => b = g a) x (x.map g) := by
  cases x with
  | ok a => exact .ok rfl
  | error e => exact .error e

/-! ### Statements with other text -/

section MapText

variable (f : String → String)

mutual

/-- A statement with other literal text. -/
def Statement.mapText : Statement → Statement
  | .text content => .text (f content)
  | .condition test yes no => .condition test yes.mapText no.mapText
  | .loop head body otherwise => .loop head body.mapText otherwise.mapText
  | .switch subject cases otherwise => .switch subject (mapTextCases cases) otherwise.mapText
  | .inlined assignments body => .inlined assignments body.mapText
  | .custom directive args body location => .custom directive args body.mapText location
  | .block statements => .block (mapTextAll statements)
  | .nothing => .nothing
  | .output value => .output value
  | .definition name => .definition name
  | .call callee args ifDefined location => .call callee args ifDefined location
  | .render file assignments site location => .render file assignments site location
  | .assign policy assignments => .assign policy assignments
  | .jump kind => .jump kind

/-- A case with other literal text. -/
def Case.mapText : Case → Case
  | .mk values body => .mk values body.mapText

/-- Statements with other literal text. -/
def mapTextAll : List Statement → List Statement
  | [] => []
  | s :: rest => s.mapText :: mapTextAll rest

/-- Cases with other literal text. -/
def mapTextCases : List Case → List Case
  | [] => []
  | c :: rest => c.mapText :: mapTextCases rest

end

/-- Each statement gets other text. -/
theorem mapTextAll_eq (statements : List Statement) :
    mapTextAll f statements = statements.map (·.mapText f) := by
  induction statements with
  | nil => rfl
  | cons s rest ih => rw [mapTextAll, ih, List.map_cons]

/-- Each case gets other text. -/
theorem mapTextCases_eq (cases : List Case) :
    mapTextCases f cases = cases.map (·.mapText f) := by
  induction cases with
  | nil => rfl
  | cons c rest ih => rw [mapTextCases, ih, List.map_cons]

/-- A function with other literal text. -/
def TemplateFunction.mapText (function : TemplateFunction) : TemplateFunction :=
  { function with body := function.body.mapText f }

/-- A compiled template with other literal text. -/
def Compiled.mapText (unit : Compiled) : Compiled :=
  { unit with body := unit.body.mapText f, functions := unit.functions.mapValues (·.mapText f) }

/-- What files have in common, with other literal text. -/
def Draft.mapText (draft : Draft) : Draft :=
  { draft with functions := draft.functions.mapValues (·.mapText f) }

/-- The branches of a condition with other literal text. -/
def mapTextBranches (branches : List (Expr × Statement)) : List (Expr × Statement) :=
  branches.map fun b => (b.1, b.2.mapText f)

/-- An open block with other literal text. -/
def Opener.mapText : Opener → Opener
  | .branch row earlier test => .branch row (mapTextBranches f earlier) test
  | .otherwise row branches => .otherwise row (mapTextBranches f branches)
  | .loop row head => .loop row head
  | .loopOtherwise row head body => .loopOtherwise row head (body.mapText f)
  | .switch row subject => .switch row subject
  | .case row subject earlier fallback values =>
    .case row subject (earlier.map (·.mapText f)) (fallback.map (·.mapText f)) values
  | .default row subject earlier => .default row subject (earlier.map (·.mapText f))
  | .define row name parameters => .define row name parameters
  | .custom row name directive args => .custom row name directive args

/-- What has been read of a file, with other literal text. -/
def Blocks.mapText (b : Blocks) : Blocks where
  stack := b.stack.map fun e => (e.1.mapText f, e.2.map (·.mapText f))
  current := b.current.map (·.mapText f)

/-! ### Laws -/

/-- Other text in a list of statements. -/
@[simp] theorem Statement.mapText_ofList (statements : List Statement) :
    (Statement.ofList statements).mapText f = .ofList (statements.map (·.mapText f)) := by
  match statements with
  | [] => rfl
  | [_] => rfl
  | s :: s' :: rest =>
    change Statement.block (mapTextAll f (s :: s' :: rest)) = _
    rw [mapTextAll_eq]
    rfl

/-- Other text in branches and behind them. -/
@[simp] theorem Statement.mapText_ofBranches (branches : List (Expr × Statement))
    (last : Statement) :
    (Statement.ofBranches branches last).mapText f =
      .ofBranches (mapTextBranches f branches) (last.mapText f) := by
  induction branches with
  | nil => rfl
  | cons b rest ih => exact congrArg (Statement.condition b.1 (b.2.mapText f)) ih

namespace Blocks

variable (b : Blocks)

/-- Other text in what has been read. -/
@[simp] theorem body_mapText : (b.mapText f).body = b.body.mapText f := by
  rw [body, body, Statement.mapText_ofList, List.map_reverse]
  rfl

/-- A statement added, with other text. -/
@[simp] theorem append_mapText (s : Statement) :
    (b.mapText f).append (s.mapText f) = (b.append s).mapText f := rfl

/-- A case is due whatever the text is. -/
@[simp] theorem awaitsCase_mapText : (b.mapText f).awaitsCase = b.awaitsCase := by
  obtain ⟨stack, current⟩ := b
  match stack with
  | [] => rfl
  | (opener, _) :: _ => cases opener <;> rfl

/-- A block is in a loop whatever the text is. -/
@[simp] theorem insideLoop_mapText : (b.mapText f).insideLoop = b.insideLoop := by
  have hloop : ∀ opener : Opener, (opener.mapText f).isLoop = opener.isLoop := by
    intro opener
    cases opener <;> rfl
  unfold insideLoop Blocks.mapText
  rw [List.any_map]
  exact congrArg (b.stack.any ·) (funext fun e => hloop e.1)

/-- Blocks are closed whatever the text is. -/
@[simp] theorem isEmpty_mapText : (b.mapText f).stack.isEmpty = b.stack.isEmpty :=
  List.isEmpty_map

end Blocks

/-! ### Parsing -/

/-- A step of the parser that other literal text passes through. -/
def PassesText (r r' : Blocks × Draft) : Prop := r' = (r.1.mapText f, r.2.mapText f)

namespace Parsing

variable {f} {p : Parsing} {b : Blocks} {draft : Draft}

/-- The values of a case are read before it is opened. -/
theorem openCase_passes (row : Nat) (parameters : String) (switchRow : Nat) (subject : Expr)
    {earlier earlier' : List Case} (hearlier : earlier' = earlier.map (·.mapText f))
    (fallback : Option Statement) (before : List Statement)
    (rest : List (Opener × List Statement)) :
    Agree (fun r r' => r' = r.mapText f)
      (p.openCase b row parameters switchRow subject earlier fallback before rest)
      (p.openCase (b.mapText f) row parameters switchRow subject earlier'
        (fallback.map (·.mapText f)) (before.map (·.mapText f))
        (rest.map fun e => (e.1.mapText f, e.2.map (·.mapText f)))) := by
  subst hearlier
  refine Agree.after fun values => ?_
  split
  · exact .error _
  · exact .ok rfl

/-- A divider has the same effect whatever the text is. -/
theorem divide_passes (row : Nat) (divider : Divider) :
    Agree (PassesText f) (p.divide b draft row divider)
      (p.divide (b.mapText f) (draft.mapText f) row divider) := by
  have hbody := b.body_mapText f
  obtain ⟨_ | ⟨⟨opener, before⟩, rest⟩, current⟩ := b
  · exact .error _
  -- the two ways to go on, and what they do to the parts that the block has gathered
  · have hclose : ∀ {s s' : Statement}, s' = s.mapText f →
        Agree (PassesText f) (.ok (⟨rest, s :: before⟩, draft) : Except Error _)
          (.ok (⟨rest.map fun e => (e.1.mapText f, e.2.map (·.mapText f)),
            s' :: before.map (·.mapText f)⟩, draft.mapText f)) := by
      rintro s _ rfl
      exact .ok rfl
    have hreopen : ∀ {o o' : Opener}, o' = o.mapText f →
        Agree (PassesText f) (.ok (⟨(o, before) :: rest, []⟩, draft) : Except Error _)
          (.ok (⟨(o', before.map (·.mapText f)) ::
            rest.map fun e => (e.1.mapText f, e.2.map (·.mapText f)), []⟩,
              draft.mapText f)) := by
      rintro o _ rfl
      exact .ok rfl
    have hbranches : ∀ (earlier : List (Expr × Statement)) (test : Expr) (body : Statement),
        mapTextBranches f earlier ++ [(test, body.mapText f)] =
          mapTextBranches f (earlier ++ [(test, body)]) := by
      intro earlier test body
      rw [mapTextBranches, mapTextBranches, List.map_append]
      rfl
    have hcases : ∀ (earlier : List Case) (values : List Expr) (body : Statement),
        earlier.map (·.mapText f) ++ [Case.mk values (body.mapText f)] =
          (earlier ++ [Case.mk values body]).map (·.mapText f) := by
      intro earlier values body
      rw [List.map_append]
      rfl
    unfold divide
    simp only [Blocks.mapText, List.map_cons] at hbody ⊢
    rw [hbody]
    -- what the block has gathered is one statement, whose text is another one
    generalize Blocks.body ⟨(opener, before) :: rest, current⟩ = body
    -- Which divider may follow depends on how the block was opened.
    cases opener with
    | branch openRow earlier test =>
      cases divider with
      | «end» => exact hclose (by rw [Statement.mapText_ofBranches, ← hbranches]; rfl)
      | «else» => exact hreopen (by rw [Opener.mapText, ← hbranches])
      | «elseif» parameters =>
        exact Agree.after fun next => hreopen (by rw [Opener.mapText, ← hbranches])
      | case _ => exact .error _
      | default => exact .error _
    | otherwise openRow branches =>
      cases divider with
      | «end» => exact hclose (Statement.mapText_ofBranches f branches _).symm
      | _ => exact .error _
    | loop openRow head =>
      cases divider with
      | «end» => exact hclose rfl
      | «else» => exact hreopen rfl
      | _ => exact .error _
    | loopOtherwise openRow head body =>
      cases divider with
      | «end» => exact hclose rfl
      | _ => exact .error _
    | switch switchRow subject =>
      cases divider with
      | «end» => exact hclose rfl
      | case parameters =>
        exact (openCase_passes row parameters switchRow subject rfl none before rest).bind
          fun _ _ hopened => .ok (by rw [hopened]; rfl)
      | default => exact hreopen rfl
      | «else» => exact .error _
      | «elseif» _ => exact .error _
    | case switchRow subject earlier fallback values =>
      cases divider with
      | «end» =>
        refine hclose ?_
        rw [Statement.mapText, mapTextCases_eq, ← hcases]
        cases fallback <;> rfl
      | case parameters =>
        exact (openCase_passes row parameters switchRow subject (hcases ..) fallback before
          rest).bind fun _ _ hopened => .ok (by rw [hopened]; rfl)
      | default =>
        cases fallback with
        | none => exact hreopen (by rw [hcases, Opener.mapText])
        | some _ => exact .error _
      | «else» => exact .error _
      | «elseif» _ => exact .error _
    | default switchRow subject earlier =>
      cases divider with
      | «end» => exact hclose (by rw [Statement.mapText, mapTextCases_eq])
      | case parameters =>
        exact (openCase_passes row parameters switchRow subject rfl (some body) before rest).bind
          fun _ _ hopened => .ok (by rw [hopened]; rfl)
      | default => exact .error _
      | «else» => exact .error _
      | «elseif» _ => exact .error _
    -- a definition changes the functions that are known too
    | define openRow name parameters =>
      cases divider with
      | «end» =>
        refine .ok ?_
        rw [PassesText, Draft.mapText, Draft.mapText, ← Assoc.insert_mapValues]
        rfl
      | _ => exact .error _
    | custom openRow name directive args =>
      cases divider with
      | «end» => exact hclose rfl
      | _ => exact .error _

/-- A definition opens whatever the text is. -/
theorem define_passes (name parameters : String) (row : Nat) :
    Agree (fun r r' => r' = r.mapText f) (p.define b draft name parameters row)
      (p.define (b.mapText f) (draft.mapText f) name parameters row) := by
  unfold define
  rw [Blocks.isEmpty_mapText, Draft.mapText, Assoc.contains_mapValues]
  split
  · exact .error _
  · split
    · exact .error _
    · exact Agree.after fun names => .ok rfl

/-- A custom directive has the same effect whatever the text is. -/
theorem customDirective_passes (id parameters : String) (row : Nat) :
    Agree (fun r r' => r' = r.mapText f) (p.customDirective b id parameters row)
      (p.customDirective (b.mapText f) id parameters row) := by
  unfold customDirective
  split
  · exact .error _
  · refine Agree.after fun args => ?_
    split
    · exact .ok rfl
    · exact .ok rfl

/-- A call has no literal text. -/
theorem callOf_passes (row : Nat) (ifDefined : Bool) (es : List Expr) :
    Agree (fun s s' => s' = s.mapText f) (p.callOf row ifDefined es)
      (p.callOf row ifDefined es) := by
  unfold callOf
  split
  · exact .error _
  · exact .ok rfl
  · exact .ok rfl

end Parsing

end MapText

/-! ### Squeezing -/

/-- A configuration with another separator for squeezed text, or without one. -/
def Config.withSeparator (config : Config) (separator : Option Char) : Config :=
  { config with settings := { config.settings with separator } }

/-- A text, squeezed. -/
def Text.squeezed (separator : Char) (content : String) : String :=
  String.ofList (squeeze separator content.toList)

namespace Parsing

variable {p : Parsing} {b : Blocks} {draft : Draft} {separator : Char}
  {n : Source → Draft → Except Error (Statement × Draft)}

/-- The parser of a file that squeezes literal text, with another parser of included files. -/
def squeezing (p : Parsing) (separator : Char)
    (nested : Source → Draft → Except Error (Statement × Draft)) : Parsing :=
  { p with config := p.config.withSeparator (some separator), nested }

/-- Two parsed files, the second one with literal text that is squeezed. -/
def ReadSqueezed (separator : Char) (r r' : Statement × Draft) : Prop :=
  r' = (r.1.mapText (Text.squeezed separator), r.2.mapText (Text.squeezed separator))

/-- A parser of included files that squeezes literal text, beside one that does not. -/
def NestedSqueezed (separator : Char)
    (n n' : Source → Draft → Except Error (Statement × Draft)) : Prop :=
  ∀ source draft, Agree (ReadSqueezed separator) (n source draft)
    (n' source (draft.mapText (Text.squeezed separator)))

/-- An `#include` does the same, with the text of the included file squeezed. -/
theorem includeFile_squeezed (hn : NestedSqueezed separator p.nested n) (row : Nat)
    (parameters : String) :
    Agree (ReadSqueezed separator) (p.includeFile row parameters draft)
      ((p.squeezing separator n).includeFile row parameters
        (draft.mapText (Text.squeezed separator))) := by
  unfold includeFile
  refine Agree.after fun target => ?_
  obtain ⟨name, assignments⟩ := target
  refine Agree.after fun source => ?_
  -- the included file is parsed with squeezed text, and made one statement
  have hnested : Agree (ReadSqueezed separator)
      (p.nested source draft >>= fun r => .ok (.inlined assignments r.1, r.2))
      (n source (draft.mapText (Text.squeezed separator)) >>=
        fun r => .ok (.inlined assignments r.1, r.2)) :=
    (hn source draft).bind fun _ _ hr => .ok (by rw [hr]; rfl)
  cases source.fileName? with
  | none => exact hnested
  | some file =>
    change Agree _ (if file ∈ p.opened then _ else _) (if file ∈ p.opened then _ else _)
    split
    · exact .error _
    · exact hnested

/-- A directive does the same, with literal text squeezed. -/
theorem directive_squeezed (hn : NestedSqueezed separator p.nested n) (id parameters : String)
    (row : Nat) :
    Agree (PassesText (Text.squeezed separator)) (p.directive b draft id parameters row)
      ((p.squeezing separator n).directive (b.mapText (Text.squeezed separator))
        (draft.mapText (Text.squeezed separator)) id parameters row) := by
  unfold directive
  split
  -- no directive but `#include` gets to the text of statements
  · exact Agree.after fun test => .ok rfl
  · exact Agree.after fun head => .ok rfl
  · exact Agree.after fun subject => .ok rfl
  · exact Agree.after fun value => .ok rfl
  · exact (includeFile_squeezed hn row parameters).bind fun _ _ hr => .ok (by rw [hr]; rfl)
  · exact Agree.after fun target => .ok rfl
  · exact Agree.after fun es => (callOf_passes row false es).bind fun _ _ hcall =>
      .ok (by rw [hcall]; rfl)
  · exact Agree.after fun es => (callOf_passes row true es).bind fun _ _ hcall =>
      .ok (by rw [hcall]; rfl)
  -- `#break` and `#continue` ask for the blocks around them
  · rw [Blocks.insideLoop_mapText]
    split
    · exact .ok rfl
    · exact .error _
  · rw [Blocks.insideLoop_mapText]
    split
    · exact .ok rfl
    · exact .error _
  · exact .ok rfl
  · split
    · refine Agree.after fun assignments => ?_
      split
      · exact .error _
      · exact .ok rfl
    · exact (customDirective_passes id parameters row).bind fun _ _ hr => .ok (by rw [hr]; rfl)

/-- Literal text is squeezed where it is added, and squeezing leaves something of every text. -/
theorem literal_squeezed (hplain : p.config.settings.separator = none) (chars : List Char) :
    (p.squeezing separator n).literal (b.mapText (Text.squeezed separator)) chars =
      (p.literal b chars).mapText (Text.squeezed separator) := by
  have hsqueezing : (p.squeezing separator n).config.settings.separator = some separator := rfl
  have hempty : (Text.squeeze separator chars).isEmpty = chars.isEmpty := by
    rw [Bool.eq_iff_iff, List.isEmpty_iff, List.isEmpty_iff, Text.squeeze_eq_nil_iff]
  -- Empty text is dropped on both sides, and no other text becomes empty.
  unfold literal
  rw [hplain, hsqueezing]
  dsimp only
  rw [hempty]
  split
  · rfl
  · rw [← Blocks.append_mapText, Statement.mapText, Text.squeezed, String.toList_ofList]

/-- A tag does the same, with literal text squeezed. -/
theorem addTag_squeezed (hn : NestedSqueezed separator p.nested n) (tag : Tag) (row : Nat) :
    Agree (PassesText (Text.squeezed separator)) (p.addTag b draft tag row)
      ((p.squeezing separator n).addTag (b.mapText (Text.squeezed separator))
        (draft.mapText (Text.squeezed separator)) tag row) := by
  -- A tag ends or divides the innermost block, or it stands for a statement of its own.
  unfold addTag
  cases Divider.ofTag? tag with
  | some divider => exact divide_passes row divider
  | none =>
    dsimp only
    rw [Blocks.awaitsCase_mapText]
    split
    · exact .error _
    · cases tag with
      | directive id parameters => exact directive_squeezed hn id _ row
      | call name ifDefined parameters => exact Agree.after fun args => .ok rfl
      | define name parameters =>
        exact (define_passes name parameters row).bind fun _ _ hr => .ok (by rw [hr]; rfl)

/-- An item does the same, with literal text squeezed. -/
theorem add_squeezed (hplain : p.config.settings.separator = none)
    (hn : NestedSqueezed separator p.nested n) (item : Item) :
    Agree (PassesText (Text.squeezed separator)) (p.add b draft item)
      ((p.squeezing separator n).add (b.mapText (Text.squeezed separator))
        (draft.mapText (Text.squeezed separator)) item) := by
  unfold add
  cases item with
  | text chars row =>
    dsimp only
    rw [Blocks.awaitsCase_mapText]
    split
    -- Where a case is awaited, text must be blank; it is looked at before it is squeezed.
    · split
      · exact .ok rfl
      · exact .error _
    · exact .ok (by rw [literal_squeezed hplain]; rfl)
  | tag tag row => exact addTag_squeezed hn tag row

/-- Items do the same one after the other, with literal text squeezed. -/
theorem addAll_squeezed (hplain : p.config.settings.separator = none)
    (hn : NestedSqueezed separator p.nested n) (items : List Item) :
    Agree (PassesText (Text.squeezed separator)) (p.addAll b draft items)
      ((p.squeezing separator n).addAll (b.mapText (Text.squeezed separator))
        (draft.mapText (Text.squeezed separator)) items) := by
  induction items generalizing b draft with
  | nil => exact .ok rfl
  | cons item rest ih =>
    refine (add_squeezed hplain hn item).bind fun s s' hs => ?_
    obtain ⟨b, draft⟩ := s
    obtain rfl := hs
    exact ih

/-- A file is the same statement, with literal text squeezed. -/
theorem parseItems_squeezed (hplain : p.config.settings.separator = none)
    (hn : NestedSqueezed separator p.nested n) (items : List Item) :
    Agree (ReadSqueezed separator) (p.parseItems draft items)
      ((p.squeezing separator n).parseItems (draft.mapText (Text.squeezed separator)) items) := by
  refine (addAll_squeezed hplain hn items).bind fun s s' hs => ?_
  obtain ⟨⟨stack, current⟩, draft⟩ := s
  -- a file is left with no block open, or there is an error at the innermost one
  obtain rfl := hs
  cases stack with
  | nil => exact .ok (by rw [ReadSqueezed, ← Blocks.body_mapText])
  | cons layer rest =>
    obtain ⟨opener, before⟩ := layer
    cases opener <;> exact .error _

end Parsing

variable {config : Config} {separator : Char}

/-- Literal text that is squeezed changes nothing in how a file is parsed, but for this text. -/
theorem parseFile_squeezed (hplain : config.settings.separator = none) (files : Files)
    (depth : Nat) (opened : List String) :
    Parsing.NestedSqueezed separator (parseFile config files depth opened)
      (parseFile (config.withSeparator (some separator)) files depth opened) := by
  -- By induction on the nesting of includes: the included files are one level down.
  induction depth generalizing opened with
  | zero => exact fun _ _ => .error _
  | succ depth ih =>
    intro source draft
    unfold parseFile
    refine Agree.after fun content => ?_
    have hkeep : (config.withSeparator (some separator)).keep = config.keep := rfl
    dsimp only
    rw [hkeep]
    cases itemsOf config.keep content.toList with
    | error e => exact .error _
    | ok items =>
      let parsing : Parsing :=
        { config, files, file := source.fileName?, opened := source.fileName?.toList ++ opened
          nested := parseFile config files depth (source.fileName?.toList ++ opened) }
      exact Parsing.parseItems_squeezed (p := parsing) hplain (ih _) items

/-- **Squeezing comes last.** A source compiles with a separator if it compiles without one, to the
same template but for its literal text, which is squeezed; and else it fails in the same way. -/
theorem compile_squeezed (hplain : config.settings.separator = none) (files : Files)
    (source : Source) (first : Nat) :
    compile (config.withSeparator (some separator)) files source first =
      (compile config files source first).map
        fun r => (r.1.mapText (Text.squeezed separator), r.2) := by
  have hread : Agree (Parsing.ReadSqueezed separator)
      (parseFile config files files.nestingBound [] source { nextSite := first })
      (parseFile (config.withSeparator (some separator)) files files.nestingBound [] source
        { nextSite := first }) :=
    parseFile_squeezed hplain files files.nestingBound [] source _
  unfold compile
  rw [hread.eq_map]
  cases parseFile config files files.nestingBound [] source { nextSite := first } with
  | error e => rfl
  | ok r => rfl

end Stencil
