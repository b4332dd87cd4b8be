import Stencil.Proofs.Template.Grammar
import Stencil.Proofs.Template.Likeness

/-!
# The parser accepts the grammar

A file is parsed with a stack of open blocks, and the grammar knows no stack. Both say the same:
the items of a file go well through the stack and leave no open block exactly if the grammar derives
a list of statements from them, and then the statements are these.

* What the grammar derives goes well through any stack whose blocks have the nesting of the
  derivation (`Parsing.Derives.runs`, by induction on the derivation).
* What goes well closes all blocks that were open. So, from the last item to the first, the rest of
  the items completes the open blocks (`Completes`), whichever block the next item belongs to.

Main definitions: `nestingIn`, `Parsing.Step`, `Parsing.Closes`, `Parsing.Completes`.
Main statements: `Parsing.step_of_add`, `Parsing.Derives.runs`, `Parsing.completes_of_addAll`,
`Parsing.parseItems_eq_ok_iff`.
-/

namespace Stencil

/-- The nesting in a stack of open blocks. -/
def nestingIn : List (Opener × List Statement) → Nesting
  | [] => .top
  | (opener, _) :: rest => if opener.isLoop then .loop else (nestingIn rest).inside

/-- An open loop, however deep, makes the nesting one in a loop. -/
theorem nestingIn_eq_loop_iff {stack : List (Opener × List Statement)} :
    nestingIn stack = .loop ↔ stack.any (·.1.isLoop) = true := by
  induction stack with
  | nil => simp [nestingIn]
  | cons block rest ih =>
    rw [nestingIn, List.any_cons, Bool.or_eq_true, ← ih]
    by_cases hloop : block.1.isLoop = true
    · simp [hloop]
    · cases hnesting : nestingIn rest <;> simp [hloop, Nesting.inside]

/-- The nesting is that of a file exactly if no block is open. -/
theorem nestingIn_eq_top_iff {stack : List (Opener × List Statement)} :
    nestingIn stack = .top ↔ stack = [] := by
  -- an open block makes the nesting one in a loop or one inside, never that of a file
  cases stack with
  | nil => simp [nestingIn]
  | cons block rest =>
    rw [nestingIn]
    by_cases hloop : block.1.isLoop = true
    · simp [hloop]
    · cases hnesting : nestingIn rest <;> simp [hloop, Nesting.inside]

namespace Parsing

variable {p : Parsing}

/-! ### Steps -/

/-- A tag opens a block. -/
inductive Opens (p : Parsing) (nesting : Nesting) (draft : Draft) (row : Nat) :
    Tag → Opener → Prop where
  | condition {parameters : Option String} {test : Expr} :
      p.singleExpr row (parameters.getD "") "#if" = .ok test →
      Opens p nesting draft row (.directive "if" parameters) (.branch row [] test)
  | loop {parameters : Option String} {head : LoopHead} :
      parseLoopHead p.file row (parameters.getD "") = .ok head →
      Opens p nesting draft row (.directive "for" parameters) (.loop row head)
  | switch {parameters : Option String} {subject : Expr} :
      p.singleExpr row (parameters.getD "") "#switch" = .ok subject →
      Opens p nesting draft row (.directive "switch" parameters) (.switch row subject)
  | define {name parameters : String} {names : List String} :
      nesting = .top → draft.functions.contains name = false →
      parseParameters p.file row parameters = .ok names →
      Opens p nesting draft row (.define name parameters) (.define row name names)
  | custom {id : String} {parameters : Option String} {directive : Directive} {args : List Expr} :
      Foreign id parameters → p.config.directives.get? id = some directive →
      directive.hasBody = true → p.exprs row (parameters.getD "") = .ok args →
      Opens p nesting draft row (.directive id parameters) (.custom row id directive args)

/-- What an item may do to the open blocks. -/
inductive Step (p : Parsing) (b : Blocks) (draft : Draft) : Item → Blocks × Draft → Prop where
  | blank {chars : List Char} {row : Nat} :
      b.awaitsCase = true → Text.allBlank chars = true → Step p b draft (.text chars row) (b, draft)
  | text {chars : List Char} {row : Nat} :
      b.awaitsCase = false →
      Step p b draft (.text chars row) (⟨b.stack, p.literals chars ++ b.current⟩, draft)
  | divide {tag : Tag} {row : Nat} {divider : Divider} {r : Blocks × Draft} :
      Divider.ofTag? tag = some divider → p.divide b draft row divider = .ok r →
      Step p b draft (.tag tag row) r
  | simple {tag : Tag} {row : Nat} {s : Statement} {draft' : Draft} :
      b.awaitsCase = false → p.Simple (nestingIn b.stack) draft row tag s draft' →
      Step p b draft (.tag tag row) (b.append s, draft')
  | opens {tag : Tag} {row : Nat} {opener : Opener} :
      b.awaitsCase = false → p.Opens (nestingIn b.stack) draft row tag opener →
      Step p b draft (.tag tag row) (b.openBlock opener, draft)

/-- A text adds the literals it makes up. -/
theorem literal_eq (b : Blocks) (chars : List Char) :
    p.literal b chars = ⟨b.stack, p.literals chars ++ b.current⟩ := by
  change (if (p.squeezed chars).isEmpty then b else b.append _) = _
  unfold literals
  split <;> rfl

/-- A directive that is no divider is a statement by itself, or opens a block. -/
theorem step_of_directive {b : Blocks} {draft : Draft} {id : String} {parameters : Option String}
    {row : Nat} {r : Blocks × Draft} (hcase : b.awaitsCase = false)
    (htag : Divider.ofTag? (.directive id parameters) = none)
    (h : p.directive b draft id (parameters.getD "") row = .ok r) :
    p.Step b draft (.tag (.directive id parameters) row) r := by
  unfold directive at h
  -- One case for each directive of the language that assigns nothing, then all others.
  split at h
  -- the three directives that open a block
  · obtain ⟨test, htest, h⟩ := bind_eq_ok_iff.mp h
    cases h
    exact .opens hcase (.condition htest)
  · obtain ⟨head, hhead, h⟩ := bind_eq_ok_iff.mp h
    cases h
    exact .opens hcase (.loop (mapError_eq_ok_iff.mp hhead))
  · obtain ⟨subject, hsubject, h⟩ := bind_eq_ok_iff.mp h
    cases h
    exact .opens hcase (.switch hsubject)
  -- the directives that are statements by themselves
  · obtain ⟨value, hvalue, h⟩ := bind_eq_ok_iff.mp h
    cases h
    exact .simple hcase (.output hvalue)
  · obtain ⟨⟨s, draft'⟩, hinclude, h⟩ := bind_eq_ok_iff.mp h
    cases h
    exact .simple hcase (.inlined hinclude)
  · obtain ⟨⟨name, assignments⟩, htarget, h⟩ := bind_eq_ok_iff.mp h
    cases h
    exact .simple hcase (.render htarget)
  · obtain ⟨args, hargs, h⟩ := bind_eq_ok_iff.mp h
    obtain ⟨s, hs, h⟩ := bind_eq_ok_iff.mp h
    cases h
    exact .simple hcase (.call hargs hs)
  · obtain ⟨args, hargs, h⟩ := bind_eq_ok_iff.mp h
    obtain ⟨s, hs, h⟩ := bind_eq_ok_iff.mp h
    cases h
    exact .simple hcase (.callIfDefined hargs hs)
  -- the two that go well in a loop only
  · split at h
    · cases h
      exact .simple hcase (.leave (nestingIn_eq_loop_iff.mpr ‹_›))
    · cases h
  · split at h
    · cases h
      exact .simple hcase (.resume (nestingIn_eq_loop_iff.mpr ‹_›))
    · cases h
  · cases h
    exact .simple hcase .finish
  · split at h
    -- a directive that assigns under some policy
    · rename_i policy hpolicy
      obtain ⟨assignments, hassignments, h⟩ := bind_eq_ok_iff.mp h
      split at h
      · cases h
      · rename_i hbad
        cases h
        simp only [Bool.or_eq_true, List.isEmpty_iff, Bool.not_eq_eq_eq_not, Bool.not_true, not_or,
          Bool.not_eq_false] at hbad
        exact .simple hcase (.assign hpolicy hassignments hbad.1 hbad.2)
    · rename_i hpolicy
      -- the remaining ones are foreign to the language, so they are custom
      have hid : id ∉ builtInIds := by
        intro hmem
        simp only [builtInIds, List.mem_cons, List.not_mem_nil, or_false] at hmem
        rcases hmem with rfl | rfl | rfl | rfl | rfl | rfl | rfl | rfl | rfl | rfl | rfl | rfl |
          rfl | rfl <;> contradiction
      obtain ⟨b', hcustom, h⟩ := bind_eq_ok_iff.mp h
      cases h
      -- Whether a custom directive opens a block is a matter of how it is registered.
      unfold customDirective at hcustom
      split at hcustom
      · cases hcustom
      · rename_i found hfound
        obtain ⟨args, hargs, hcustom⟩ := bind_eq_ok_iff.mp hcustom
        split at hcustom
        · rename_i hbody
          cases hcustom
          exact .opens hcase (.custom ⟨htag, hid⟩ hfound hbody hargs)
        · rename_i hbody
          cases hcustom
          exact .simple hcase (.custom ⟨htag, hid⟩ hfound (Bool.not_eq_true _ ▸ hbody) hargs)

/-- An item that goes well does one of the steps. -/
theorem step_of_add {b : Blocks} {draft : Draft} {item : Item} {r : Blocks × Draft}
    (h : p.add b draft item = .ok r) : p.Step b draft item r := by
  cases item with
  | text chars row =>
    change (if b.awaitsCase then _ else _) = Except.ok r at h
    -- a blank text in front of the first case does nothing, and no other text may stand there
    split at h
    · rename_i hcase
      split at h
      · rename_i hblank
        cases h
        exact .blank hcase hblank
      · cases h
    · rename_i hcase
      cases h
      rw [literal_eq]
      exact .text (Bool.not_eq_true _ ▸ hcase)
  | tag tag row =>
    change p.addTag b draft tag row = .ok r at h
    unfold addTag at h
    split at h
    · rename_i divider hdivider
      exact .divide hdivider h
    -- a tag that is no divider goes well only where no case is due
    · rename_i hdivider
      split at h
      · cases h
      · rename_i hcase
        replace hcase : b.awaitsCase = false := Bool.not_eq_true _ ▸ hcase
        split at h
        -- a directive, a call of a function by its name, and a definition
        · exact step_of_directive hcase hdivider h
        · obtain ⟨args, hargs, h⟩ := bind_eq_ok_iff.mp h
          cases h
          exact .simple hcase (.callByName hargs)
        · obtain ⟨b', hdefine, h⟩ := bind_eq_ok_iff.mp h
          cases h
          unfold define at hdefine
          split at hdefine
          · cases hdefine
          · rename_i hstack
            split at hdefine
            · cases hdefine
            · rename_i hname
              obtain ⟨names, hnames, hdefine⟩ := bind_eq_ok_iff.mp hdefine
              cases hdefine
              -- a definition may only stand outside all blocks
              have htop : nestingIn b.stack = .top := by
                simpa [nestingIn_eq_top_iff] using hstack
              exact .opens hcase (.define htop (Bool.not_eq_true _ ▸ hname)
                (mapError_eq_ok_iff.mp hnames))

/-- No directive of the language is a divider. -/
theorem ofTag?_of_mem_builtInIds {id : String} (h : id ∈ builtInIds) (parameters : Option String) :
    Divider.ofTag? (.directive id parameters) = none := by
  simp only [builtInIds, List.mem_cons, List.not_mem_nil, or_false] at h
  rcases h with
    rfl | rfl | rfl | rfl | rfl | rfl | rfl | rfl | rfl | rfl | rfl | rfl | rfl | rfl <;>
    cases parameters <;> rfl

/-- What a tag that is no divider does where no case is due. -/
theorem add_tag {b : Blocks} {draft : Draft} {tag : Tag} {row : Nat}
    (hcase : b.awaitsCase = false) :
    Divider.ofTag? tag = none → p.add b draft (.tag tag row) =
      match tag with
      | .directive id parameters => p.directive b draft id (parameters.getD "") row
      | .call name ifDefined parameters => do
        let args ← p.exprs row parameters
        return (b.append (.call (.named name) args ifDefined ⟨p.file, row⟩), draft)
      | .define name parameters => do return (← p.define b draft name parameters row, draft) := by
  intro htag
  change p.addTag b draft tag row = _
  unfold addTag
  rw [htag]
  dsimp only
  rw [hcase]
  rfl

/-- What a directive that is no divider does where no case is due. -/
theorem add_directive {b : Blocks} {draft : Draft} {id : String} {parameters : Option String}
    {row : Nat} (hcase : b.awaitsCase = false)
    (htag : Divider.ofTag? (.directive id parameters) = none) :
    p.add b draft (.tag (.directive id parameters) row) =
      p.directive b draft id (parameters.getD "") row := by
  rw [add_tag hcase htag]

/-- A directive that is foreign to the language is a custom one. -/
theorem directive_foreign {b : Blocks} {draft : Draft} {id parameters : String} {row : Nat}
    (hid : id ∉ builtInIds) :
    p.directive b draft id parameters row =
      (p.customDirective b id parameters row).map (·, draft) := by
  have hpolicy : policyOf? id = none := by
    unfold policyOf?
    split
    all_goals first
      | rfl
      | exact absurd (by decide) hid
  unfold directive
  split
  all_goals first
    | exact absurd (by decide) hid
    | skip
  rw [hpolicy]
  rfl

/-- What a directive of the language does where no case is due. -/
theorem add_builtIn {b : Blocks} {draft : Draft} {id : String} {parameters : Option String}
    {row : Nat} (hcase : b.awaitsCase = false) (hid : id ∈ builtInIds) :
    p.add b draft (.tag (.directive id parameters) row) =
      p.directive b draft id (parameters.getD "") row :=
  add_directive hcase (ofTag?_of_mem_builtInIds hid parameters)

/-- A custom directive opens a block or is a statement by itself, as it is registered. -/
theorem add_foreign {b : Blocks} {draft : Draft} {id : String} {parameters : Option String}
    {row : Nat} {directive : Directive} {args : List Expr} (hcase : b.awaitsCase = false)
    (hforeign : Foreign id parameters) (hfound : p.config.directives.get? id = some directive)
    (hargs : p.exprs row (parameters.getD "") = .ok args) :
    p.add b draft (.tag (.directive id parameters) row) =
      .ok (if directive.hasBody then b.openBlock (.custom row id directive args)
        else b.append (.custom directive args .nothing ⟨p.file, row⟩), draft) := by
  rw [add_directive hcase hforeign.1, directive_foreign hforeign.2, customDirective, hfound]
  dsimp only
  rw [hargs]
  change Except.map _ (if _ then _ else _) = _
  cases directive.hasBody <;> rfl

/-- A tag that is a statement by itself adds it. -/
theorem add_of_simple {b : Blocks} {draft draft' : Draft} {tag : Tag} {row : Nat} {s : Statement}
    (hcase : b.awaitsCase = false) (h : p.Simple (nestingIn b.stack) draft row tag s draft') :
    p.add b draft (.tag tag row) = .ok (b.append s, draft') := by
  cases h with
  | output hvalue =>
    rw [add_builtIn hcase (by decide)]
    exact bind_eq_ok_iff.mpr ⟨_, hvalue, rfl⟩
  | @assign _ _ _ assignments hpolicy hassignments hsome hall =>
    -- the words that assign are directives of the language, whatever policy they have
    have hgood : ¬ (assignments.isEmpty || !assignments.all Expr.isAssignment) = true := by
      simp [hsome, hall]
    unfold policyOf? at hpolicy
    split at hpolicy
    all_goals cases hpolicy
    all_goals
      rw [add_builtIn hcase (by decide)]
      exact bind_eq_ok_iff.mpr ⟨_, hassignments, if_neg hgood⟩
  | inlined hinclude =>
    rw [add_builtIn hcase (by decide)]
    exact bind_eq_ok_iff.mpr ⟨_, hinclude, rfl⟩
  | render htarget =>
    rw [add_builtIn hcase (by decide)]
    exact bind_eq_ok_iff.mpr ⟨_, htarget, rfl⟩
  | call hargs hs =>
    rw [add_builtIn hcase (by decide)]
    exact bind_eq_ok_iff.mpr ⟨_, hargs, bind_eq_ok_iff.mpr ⟨_, hs, rfl⟩⟩
  | callIfDefined hargs hs =>
    rw [add_builtIn hcase (by decide)]
    exact bind_eq_ok_iff.mpr ⟨_, hargs, bind_eq_ok_iff.mpr ⟨_, hs, rfl⟩⟩
  | callByName hargs =>
    rw [add_tag hcase rfl]
    exact bind_eq_ok_iff.mpr ⟨_, hargs, rfl⟩
  | leave hloop =>
    rw [add_builtIn hcase (by decide)]
    exact if_pos (nestingIn_eq_loop_iff.mp hloop)
  -- the word alone is not enough, the nesting must be one in a loop
  | resume hloop =>
    rw [add_builtIn hcase (by decide)]
    exact if_pos (nestingIn_eq_loop_iff.mp hloop)
  | finish =>
    rw [add_builtIn hcase (by decide)]
    rfl
  | custom hforeign hfound hbody hargs =>
    rw [add_foreign hcase hforeign hfound hargs, hbody]
    rfl

/-- A tag that opens a block opens it. -/
theorem add_of_opens {b : Blocks} {draft : Draft} {tag : Tag} {row : Nat} {opener : Opener}
    (hcase : b.awaitsCase = false) (h : p.Opens (nestingIn b.stack) draft row tag opener) :
    p.add b draft (.tag tag row) = .ok (b.openBlock opener, draft) := by
  cases h with
  | condition htest =>
    rw [add_builtIn hcase (by decide)]
    exact bind_eq_ok_iff.mpr ⟨_, htest, rfl⟩
  | loop hhead =>
    rw [add_builtIn hcase (by decide)]
    exact bind_eq_ok_iff.mpr ⟨_, mapError_eq_ok_iff.mpr hhead, rfl⟩
  | switch hsubject =>
    rw [add_builtIn hcase (by decide)]
    exact bind_eq_ok_iff.mpr ⟨_, hsubject, rfl⟩
  | define htop hname hnames =>
    rw [add_tag hcase rfl]
    -- the nesting of a file means that no block is open, which is what the parser looks at
    have hstack := nestingIn_eq_top_iff.mp htop
    refine bind_eq_ok_iff.mpr ⟨b.openBlock (.define row _ _), ?_, rfl⟩
    unfold define
    rw [hstack, hname]
    exact bind_eq_ok_iff.mpr ⟨_, mapError_eq_ok_iff.mpr hnames, rfl⟩
  | custom hforeign hfound hbody hargs =>
    rw [add_foreign hcase hforeign hfound hargs, hbody]
    rfl

/-! ### Open switches -/

/-- The cases and the default that an open switch has, once its current part ends with some
statements. -/
inductive Gathers : Opener → List Statement → Expr → List Case → Option Statement → Prop where
  | switch {row : Nat} {subject : Expr} {ss : List Statement} :
      Gathers (.switch row subject) ss subject [] none
  | case {row : Nat} {subject : Expr} {earlier : List Case} {fallback : Option Statement}
      {values : List Expr} {ss : List Statement} :
      Gathers (.case row subject earlier fallback values) ss subject
        (earlier ++ [.mk values (.ofList ss)]) fallback
  | default {row : Nat} {subject : Expr} {earlier : List Case} {ss : List Statement} :
      Gathers (.default row subject earlier) ss subject earlier (some (.ofList ss))

namespace Gathers

variable {opener : Opener} {current before : List Statement} {subject : Expr}
  {earlier : List Case} {fallback : Option Statement} {rest : List (Opener × List Statement)}
  {draft : Draft} {row : Nat}

/-- `#end` closes the switch with all that it has gathered. -/
theorem divide_end (h : Gathers opener current.reverse subject earlier fallback) :
    p.divide ⟨(opener, before) :: rest, current⟩ draft row .end =
      .ok (⟨rest, .switch subject earlier (fallback.getD .nothing) :: before⟩, draft) := by
  cases h <;> rfl

/-- `#case` opens the next case of a switch, if it has a value. -/
theorem divide_case (h : Gathers opener current.reverse subject earlier fallback)
    {parameters : String} {r : Blocks × Draft} :
    p.divide ⟨(opener, before) :: rest, current⟩ draft row (.case parameters) = .ok r ↔
      ∃ values, p.exprs row parameters = .ok values ∧ values ≠ [] ∧
        r = (⟨(.case opener.row subject earlier fallback values, before) :: rest, []⟩, draft) := by
  -- what is open is a switch, one of its cases or its default, and each goes to the same function
  have hdivide : p.divide ⟨(opener, before) :: rest, current⟩ draft row (.case parameters) =
      p.openCase ⟨(opener, before) :: rest, current⟩ row parameters opener.row subject earlier
        fallback before rest >>= fun b => .ok (b, draft) := by
    cases h <;> rfl
  rw [hdivide, bind_eq_ok_iff]
  unfold openCase
  constructor
  · rintro ⟨b, hopen, hr⟩
    obtain ⟨values, hvalues, hopen⟩ := bind_eq_ok_iff.mp hopen
    split at hopen
    · cases hopen
    · rename_i hsome
      cases hopen
      exact ⟨values, hvalues, by simpa using hsome, (Except.ok.inj hr).symm⟩
  · rintro ⟨values, hvalues, hsome, rfl⟩
    exact ⟨_, bind_eq_ok_iff.mpr ⟨values, hvalues, if_neg (by simpa using hsome)⟩, rfl⟩

/-- `#default` opens the default of a switch, unless there is one. -/
theorem divide_default (h : Gathers opener current.reverse subject earlier fallback)
    {r : Blocks × Draft} :
    p.divide ⟨(opener, before) :: rest, current⟩ draft row .default = .ok r ↔
      fallback = none ∧
        r = (⟨(.default opener.row subject earlier, before) :: rest, []⟩, draft) := by
  cases fallback with
  | none =>
    have hdivide : p.divide ⟨(opener, before) :: rest, current⟩ draft row .default =
        .ok (⟨(.default opener.row subject earlier, before) :: rest, []⟩, draft) := by
      cases h <;> rfl
    rw [hdivide, Except.ok.injEq, eq_comm]
    exact (and_iff_right rfl).symm
  | some first =>
    -- There is a default already.
    constructor
    · intro hr
      cases h <;> cases hr
    · rintro ⟨⟨⟩, _⟩

end Gathers

/-! ### What the grammar derives goes well -/

/-- Items go well one part after the other. -/
theorem addAll_append {b : Blocks} {draft : Draft} {front items : List Item} {r : Blocks × Draft} :
    p.addAll b draft (front ++ items) = .ok r ↔
      ∃ s, p.addAll b draft front = .ok s ∧ p.addAll s.1 s.2 items = .ok r := by
  induction front generalizing b draft with
  | nil =>
    constructor
    · exact fun h => ⟨_, rfl, h⟩
    · rintro ⟨s, hs, h⟩
      rwa [← Except.ok.inj hs] at h
  | cons item rest ih =>
    rw [List.cons_append, addAll, addAll]
    simp only [bind_eq_ok_iff, ih]
    constructor
    · rintro ⟨s, hitem, s', hrest, h⟩
      exact ⟨s', ⟨s, hitem, hrest⟩, h⟩
    · rintro ⟨s', ⟨s, hitem, hrest⟩, h⟩
      exact ⟨s, hitem, s', hrest, h⟩

/-- Items go well if the first one does and the others do after it. -/
theorem addAll_cons {b b₁ : Blocks} {draft draft₁ : Draft} {item : Item} {items : List Item}
    {r : Blocks × Draft} (hitem : p.add b draft item = .ok (b₁, draft₁))
    (hitems : p.addAll b₁ draft₁ items = .ok r) : p.addAll b draft (item :: items) = .ok r :=
  bind_eq_ok_iff.mpr ⟨_, hitem, hitems⟩

theorem addAll_single {b : Blocks} {draft : Draft} {item : Item} {r : Blocks × Draft}
    (h : p.add b draft item = .ok r) : p.addAll b draft [item] = .ok r := addAll_cons h rfl

/-- A divider is handed to the block that is open. -/
theorem add_divider {b : Blocks} {draft : Draft} {item : Item} {divider : Divider}
    (h : item.divider? = some divider) :
    p.add b draft item = p.divide b draft item.row divider := by
  cases item with
  | text chars row => cases h
  | tag t row =>
    change p.addTag b draft t row = _
    unfold addTag
    rw [show Divider.ofTag? t = some divider from h]
    rfl

/-- Blank texts in front of the first case of a switch do nothing. -/
theorem addAll_blanks {b : Blocks} {draft : Draft} (hcase : b.awaitsCase = true)
    {blanks : List Item} (hblanks : ∀ item ∈ blanks, item.IsBlank) :
    p.addAll b draft blanks = .ok (b, draft) := by
  induction blanks with
  | nil => rfl
  | cons item rest ih =>
    obtain ⟨hitem, hrest⟩ := List.forall_mem_cons.mp hblanks
    refine addAll_cons ?_ (ih hrest)
    cases item with
    | tag t row => exact hitem.elim
    | text chars row =>
      change (if b.awaitsCase then _ else _) = _
      rw [if_pos hcase]
      exact if_pos hitem

/-- Items go well through every stack of open blocks that they may stand in, and add to it what
they make up. -/
def Runs (p : Parsing) (nesting : Nesting) (draft : Draft) (items : List Item) (draft' : Draft) :
    Part → Prop
  | .statements ss => ∀ b : Blocks, nestingIn b.stack = nesting → b.awaitsCase = false →
      p.addAll b draft items = .ok (⟨b.stack, ss.reverse ++ b.current⟩, draft')
  | .statement s => ∀ b : Blocks, nestingIn b.stack = nesting → b.awaitsCase = false →
      p.addAll b draft items = .ok (b.append s, draft')
  | .alternative s => ∀ row earlier test before rest current, (nestingIn rest).inside = nesting →
      p.addAll ⟨(.branch row earlier test, before) :: rest, current⟩ draft items =
        .ok (⟨rest, .ofBranches earlier (.condition test (.ofList current.reverse) s) :: before⟩,
          draft')
  | .sections cases fallback => ∀ opener before rest current subject earlier first,
      Gathers opener current.reverse subject earlier first → (first = none ∨ fallback = none) →
      (nestingIn rest).inside = nesting →
      p.addAll ⟨(opener, before) :: rest, current⟩ draft items =
        .ok (⟨rest, .switch subject (earlier ++ cases) ((first.or fallback).getD .nothing) ::
          before⟩, draft')

/-- A branch more stands inside of the others, as the one tried last. -/
theorem ofBranches_snoc (branches : List (Expr × Statement)) (test : Expr) (body last : Statement) :
    Statement.ofBranches (branches ++ [(test, body)]) last =
      .ofBranches branches (.condition test body last) := by
  unfold Statement.ofBranches
  rw [List.foldr_append]
  rfl

theorem literals_reverse (chars : List Char) : (p.literals chars).reverse = p.literals chars := by
  rcases p.literals_eq chars with h | ⟨content, h⟩ <;> rw [h] <;> rfl

/-- What a text does where no case is due. -/
theorem add_text {b : Blocks} {draft : Draft} (hcase : b.awaitsCase = false) (chars : List Char)
    (row : Nat) :
    p.add b draft (.text chars row) = .ok (⟨b.stack, p.literals chars ++ b.current⟩, draft) := by
  change (if b.awaitsCase then _ else _) = _
  rw [hcase, literal_eq]
  rfl

/-- The body of a block that has just been opened. -/
theorem Runs.body {nesting : Nesting} {draft draft' : Draft} {items : List Item}
    {ss : List Statement} (h : p.Runs nesting draft items draft' (.statements ss)) (opener : Opener)
    (before : List Statement) (rest : List (Opener × List Statement))
    (hnesting : nestingIn ((opener, before) :: rest) = nesting)
    (hcase : Blocks.awaitsCase ⟨(opener, before) :: rest, []⟩ = false) :
    p.addAll ⟨(opener, before) :: rest, []⟩ draft items =
      .ok (⟨(opener, before) :: rest, ss.reverse⟩, draft') := by
  have hbody := h ⟨(opener, before) :: rest, []⟩ hnesting hcase
  rwa [List.append_nil] at hbody

/-- **Completeness.** What the grammar derives goes well, wherever it may stand. -/
theorem Derives.runs {nesting : Nesting} {draft draft' : Draft} {items : List Item} {part : Part}
    (h : p.Derives nesting draft items part draft') : p.Runs nesting draft items draft' part := by
  -- By induction on the derivation. The statements of a block are collected last one first, so
  -- where a block ends they are reversed twice.
  induction h with
  | nil => exact fun b _ _ => rfl
  | @text _ _ _ _ ss chars row _ ih =>
    intro b hnesting hcase
    refine addAll_cons (add_text hcase chars row) ?_
    rw [List.reverse_append, literals_reverse, List.append_assoc]
    exact ih ⟨b.stack, p.literals chars ++ b.current⟩ hnesting hcase
  | next _ _ ihfront ih =>
    intro b hnesting hcase
    refine addAll_append.mpr ⟨_, ihfront b hnesting hcase, ?_⟩
    rw [List.reverse_cons, List.append_assoc]
    exact ih (b.append _) hnesting hcase
  | simple h =>
    intro b hnesting hcase
    subst hnesting
    exact addAll_single (add_of_simple hcase h)
  | @condition _ _ _ _ _ row test _ _ ss _ htest _ _ ihbody ihrest =>
    -- the body is read into the block that `#if` has opened, and what follows closes the branch
    intro b hnesting hcase
    refine addAll_cons (add_of_opens hcase (.condition htest)) (addAll_append.mpr ?_)
    refine ⟨_, ihbody.body (.branch row [] test) b.current b.stack (hnesting ▸ rfl) rfl, ?_⟩
    have hrest := ihrest row [] test b.current b.stack ss.reverse (hnesting ▸ rfl)
    rwa [List.reverse_reverse] at hrest
  -- `#end` closes all branches at once
  | noAlternative hclose =>
    intro row earlier test before rest current _
    rw [← ofBranches_snoc]
    exact addAll_single (add_divider hclose)
  | otherwise hmark _ hclose ih =>
    intro row earlier test before rest current hnesting
    refine addAll_cons (add_divider hmark) (addAll_append.mpr ?_)
    refine ⟨_, ih.body (.otherwise _ _) before rest hnesting rfl, addAll_single ?_⟩
    rw [add_divider hclose, ← ofBranches_snoc]
    change Except.ok (Blocks.mk rest (.ofBranches _ (.ofList (List.reverse _)) :: _), _) = _
    rw [List.reverse_reverse]
    rfl
  -- `#elseif` closes the branch so far, which stands among the earlier ones from here on
  | @elseif _ draft _ _ mark _ next _ _ ss _ hmark hnext _ _ ihbody ihrest =>
    intro row earlier test before rest current hnesting
    let branches := earlier ++ [(test, Statement.ofList current.reverse)]
    have hdivide : p.add ⟨(.branch row earlier test, before) :: rest, current⟩ draft mark =
        .ok (⟨(.branch mark.row branches next, before) :: rest, []⟩, draft) :=
      (add_divider hmark).trans (bind_eq_ok_iff.mpr ⟨next, hnext, rfl⟩)
    refine addAll_cons hdivide (addAll_append.mpr ?_)
    refine ⟨_, ihbody.body (.branch _ _ next) before rest hnesting rfl, ?_⟩
    have hrest := ihrest mark.row branches next before rest ss.reverse hnesting
    rwa [List.reverse_reverse, ofBranches_snoc] at hrest
  | @loop _ _ _ _ row head _ ss _ hhead _ hclose ih =>
    intro b hnesting hcase
    refine addAll_cons (add_of_opens hcase (.loop hhead)) (addAll_append.mpr ?_)
    refine ⟨_, ih.body (.loop row head) b.current b.stack rfl rfl, addAll_single ?_⟩
    rw [add_divider hclose]
    change Except.ok (Blocks.mk b.stack (.loop head (.ofList ss.reverse.reverse) _ :: _), _) = _
    rw [List.reverse_reverse]
    rfl
  | @loopElse _ _ _ _ _ row head _ _ ss ss' mark _ hhead _ hmark _ hclose ihbody ihrest =>
    intro b hnesting hcase
    refine addAll_cons (add_of_opens hcase (.loop hhead)) (addAll_append.mpr ?_)
    refine ⟨_, ihbody.body (.loop row head) b.current b.stack rfl rfl, ?_⟩
    refine addAll_cons (add_divider hmark) (addAll_append.mpr ?_)
    refine ⟨_, ihrest.body (.loopOtherwise _ head _) b.current b.stack (hnesting ▸ rfl) rfl,
      addAll_single ?_⟩
    rw [add_divider hclose]
    change Except.ok (Blocks.mk b.stack
      (.loop head (.ofList ss.reverse.reverse) (.ofList ss'.reverse.reverse) :: _), _) = _
    rw [List.reverse_reverse, List.reverse_reverse]
    rfl
  -- the subject is read, blanks are passed over, and what has been gathered so far is nothing
  | @switch _ _ _ _ row subject _ _ _ _ hsubject hblanks _ ih =>
    intro b hnesting hcase
    refine addAll_cons (add_of_opens hcase (.switch hsubject)) (addAll_append.mpr ?_)
    exact ⟨_, addAll_blanks rfl hblanks,
      ih (.switch row subject) b.current b.stack [] subject [] none .switch (.inl rfl)
        (hnesting ▸ rfl)⟩
  | noSection hclose =>
    intro opener before rest current subject earlier first hgathers _ _
    rw [List.append_nil, Option.or_none]
    exact addAll_single ((add_divider hclose).trans hgathers.divide_end)
  -- a case joins those gathered, and what is left of the switch is read behind it
  | @case _ _ _ _ mark _ values _ _ ss cases fallback hmark hvalues hsome _ _ ihbody ihrest =>
    intro opener before rest current subject earlier first hgathers hfirst hnesting
    refine addAll_cons
      ((add_divider hmark).trans (hgathers.divide_case.mpr ⟨values, hvalues, hsome, rfl⟩))
      (addAll_append.mpr ?_)
    refine ⟨_, ihbody.body (.case _ subject earlier first values) before rest hnesting rfl, ?_⟩
    have hnext := ihrest (.case opener.row subject earlier first values) before rest ss.reverse
      subject _ first .case hfirst hnesting
    rwa [List.reverse_reverse, List.append_assoc] at hnext
  | @default _ _ _ _ mark _ _ ss _ hmark _ _ ihbody ihrest =>
    intro opener before rest current subject earlier first hgathers hfirst hnesting
    -- This is the default, so there was none before it.
    obtain rfl : first = none := hfirst.resolve_right nofun
    refine addAll_cons ((add_divider hmark).trans (hgathers.divide_default.mpr ⟨rfl, rfl⟩))
      (addAll_append.mpr ?_)
    refine ⟨_, ihbody.body (.default _ subject earlier) before rest hnesting rfl, ?_⟩
    have hnext := ihrest (.default opener.row subject earlier) before rest ss.reverse
      subject earlier _ .default (.inr rfl) hnesting
    rwa [List.reverse_reverse] at hnext
  | @define _ _ _ _ row names _ ss _ hname hnames _ hclose ih =>
    intro b hnesting hcase
    refine addAll_cons (add_of_opens hcase (.define hnesting hname hnames)) (addAll_append.mpr ?_)
    -- the body of a definition stands outside all loops, which is what its nesting says
    refine ⟨_, ih.body (.define row _ names) b.current b.stack ?_ rfl, addAll_single ?_⟩
    · rw [nestingIn, hnesting]
      rfl
    · rw [add_divider hclose]
      change Except.ok (_, Draft.mk (Assoc.insert _ _
        ⟨_, names, .ofList ss.reverse.reverse, _⟩) _ _) = _
      rw [List.reverse_reverse]
      rfl
  | @custom _ _ _ _ _ row directive args _ ss _ hforeign hfound hhas hargs _ hclose ih =>
    intro b hnesting hcase
    refine addAll_cons (add_of_opens hcase (.custom hforeign hfound hhas hargs))
      (addAll_append.mpr ?_)
    refine ⟨_, ih.body (.custom row _ directive args) b.current b.stack (hnesting ▸ rfl) rfl,
      addAll_single ?_⟩
    rw [add_divider hclose]
    change Except.ok (Blocks.mk b.stack
      (.custom directive args (.ofList ss.reverse.reverse) _ :: _), _) = _
    rw [List.reverse_reverse]
    rfl

/-! ### What goes well is derived -/

/-- Items, from a divider on, end a block whose current part has some statements, and make it up
as one statement. The nesting is that of a block at the place of this one. -/
inductive Closes (p : Parsing) (nesting : Nesting) :
    Opener → List Statement → Draft → List Item → Statement → Draft → Prop where
  | branch {row : Nat} {earlier : List (Expr × Statement)} {test : Expr} {ss : List Statement}
      {draft draft' : Draft} {tail : List Item} {s : Statement} :
      p.Derives nesting draft tail (.alternative s) draft' →
      Closes p nesting (.branch row earlier test) ss draft tail
        (.ofBranches earlier (.condition test (.ofList ss) s)) draft'
  | otherwise {row : Nat} {branches : List (Expr × Statement)} {ss : List Statement} {draft : Draft}
      {close : Item} :
      close.divider? = some .end →
      Closes p nesting (.otherwise row branches) ss draft [close]
        (.ofBranches branches (.ofList ss)) draft
  | loop {row : Nat} {head : LoopHead} {ss : List Statement} {draft : Draft} {close : Item} :
      close.divider? = some .end →
      Closes p nesting (.loop row head) ss draft [close] (.loop head (.ofList ss) .nothing) draft
  | loopElse {row : Nat} {head : LoopHead} {ss ss' : List Statement} {draft draft' : Draft}
      {mark close : Item} {alternative : List Item} :
      mark.divider? = some .else → p.Derives nesting draft alternative (.statements ss') draft' →
      close.divider? = some .end →
      Closes p nesting (.loop row head) ss draft (mark :: alternative ++ [close])
        (.loop head (.ofList ss) (.ofList ss')) draft'
  | loopOtherwise {row : Nat} {head : LoopHead} {body : Statement} {ss : List Statement}
      {draft : Draft} {close : Item} :
      close.divider? = some .end →
      Closes p nesting (.loopOtherwise row head body) ss draft [close]
        (.loop head body (.ofList ss)) draft
  | sections {opener : Opener} {ss : List Statement} {subject : Expr} {earlier cases : List Case}
      {first fallback : Option Statement} {draft draft' : Draft} {tail : List Item} :
      Gathers opener ss subject earlier first → (first = none ∨ fallback = none) →
      p.Derives nesting draft tail (.sections cases fallback) draft' →
      Closes p nesting opener ss draft tail
        (.switch subject (earlier ++ cases) ((first.or fallback).getD .nothing)) draft'
  | define {row : Nat} {name : String} {names : List String} {ss : List Statement} {draft : Draft}
      {close : Item} :
      close.divider? = some .end →
      Closes p nesting (.define row name names) ss draft [close] (.definition name)
        { draft with functions :=
            draft.functions.insert name ⟨name, names, .ofList ss, ⟨p.file, row⟩⟩ }
  | custom {row : Nat} {id : String} {directive : Directive} {args : List Expr}
      {ss : List Statement} {draft : Draft} {close : Item} :
      close.divider? = some .end →
      Closes p nesting (.custom row id directive args) ss draft [close]
        (.custom directive args (.ofList ss) ⟨p.file, row⟩) draft

/-- Only a switch without a case awaits one. -/
theorem not_awaitsCase {opener : Opener} (h : ∀ row subject, opener ≠ .switch row subject)
    {before current : List Statement} {rest : List (Opener × List Statement)} :
    ¬ Blocks.awaitsCase ⟨(opener, before) :: rest, current⟩ = true := by
  cases opener with
  | switch row subject => exact absurd rfl (h row subject)
  | _ => nofun

/-- Items up to the next divider of a block make up statements of its current part. -/
inductive Fills (p : Parsing) (opener : Opener) (nesting : Nesting) (draft : Draft) :
    List Item → List Statement → Draft → Prop where
  | blanks {row : Nat} {subject : Expr} {items : List Item} :
      opener = .switch row subject → (∀ item ∈ items, item.IsBlank) →
      Fills p opener nesting draft items [] draft
  | statements {items : List Item} {ss : List Statement} {draft' : Draft} :
      (∀ row subject, opener ≠ .switch row subject) →
      p.Derives nesting draft items (.statements ss) draft' →
      Fills p opener nesting draft items ss draft'

/-- The remaining items close all open blocks, the innermost first, and make up a list of statements
together with what has been read. -/
inductive Completes (p : Parsing) : List (Opener × List Statement) → List Statement → Draft →
    List Item → List Statement → Draft → Prop where
  | done {current ss : List Statement} {draft draft' : Draft} {items : List Item} :
      p.Derives .top draft items (.statements ss) draft' →
      Completes p [] current draft items (current.reverse ++ ss) draft'
  | close {opener : Opener} {before current ss out : List Statement}
      {rest : List (Opener × List Statement)} {draft draft₁ draft₂ draft' : Draft}
      {body tail items : List Item} {s : Statement} :
      p.Fills opener (nestingIn ((opener, before) :: rest)) draft body ss draft₁ →
      p.Closes (nestingIn rest).inside opener (current.reverse ++ ss) draft₁ tail s draft₂ →
      Completes p rest (s :: before) draft₂ items out draft' →
      Completes p ((opener, before) :: rest) current draft (body ++ (tail ++ items)) out draft'

namespace Completes

variable {stack rest : List (Opener × List Statement)} {current before out ss : List Statement}
  {draft draft₁ draft' : Draft} {front tail items : List Item} {s : Statement} {opener : Opener}

/-- Statements in front of what completes the open blocks. -/
theorem prepend (hcase : Blocks.awaitsCase ⟨stack, current⟩ = false)
    (hfront : p.Derives (nestingIn stack) draft front (.statements ss) draft₁)
    (h : p.Completes stack (ss.reverse ++ current) draft₁ items out draft') :
    p.Completes stack current draft (front ++ items) out draft' := by
  cases h with
  | done hitems =>
    rw [List.reverse_append, List.reverse_reverse, List.append_assoc]
    exact .done (hfront.append hitems)
  -- the statements join those that fill the innermost open block
  | close hbody htail h =>
    rw [List.reverse_append, List.reverse_reverse, List.append_assoc] at htail
    cases hbody with
    | blanks hopener _ =>
      subst hopener
      -- no statements may stand in front of the first case of a switch
      cases hcase
    | statements hopener hbody =>
      rw [← List.append_assoc front]
      exact .close (.statements hopener (hfront.append hbody)) htail h

/-- A block that ends here. -/
theorem close_now
    (htail : p.Closes (nestingIn rest).inside opener current.reverse draft tail s draft₁)
    (h : p.Completes rest (s :: before) draft₁ items out draft') :
    p.Completes ((opener, before) :: rest) current draft (tail ++ items) out draft' := by
  have hnothing : p.Fills opener (nestingIn ((opener, before) :: rest)) draft [] [] draft := by
    cases opener with
    | switch row subject => exact .blanks rfl (List.forall_mem_nil _)
    | _ => exact .statements nofun .nil
  rw [← List.append_nil current.reverse] at htail
  exact .close hnothing htail h

/-- A block that ends with this item. -/
theorem ends {item : Item}
    (hcloses : p.Closes (nestingIn rest).inside opener current.reverse draft [item] s draft₁)
    (h : p.Completes rest (s :: before) draft₁ items out draft') :
    p.Completes ((opener, before) :: rest) current draft (item :: items) out draft' :=
  close_now hcloses h

/-- A construct that stands here. -/
theorem construct (hcase : Blocks.awaitsCase ⟨stack, current⟩ = false)
    (hfront : p.Derives (nestingIn stack) draft front (.statement s) draft₁)
    (h : p.Completes stack (s :: current) draft₁ items out draft') :
    p.Completes stack current draft (front ++ items) out draft' := prepend hcase hfront.single h

/-- A block that opens here: what fills and closes it makes up a construct. -/
theorem opened {tag : Tag} {row : Nat} (hcase : Blocks.awaitsCase ⟨stack, current⟩ = false)
    (hopens : p.Opens (nestingIn stack) draft row tag opener)
    (h : p.Completes ((opener, current) :: stack) [] draft items out draft') :
    p.Completes stack current draft (.tag tag row :: items) out draft' := by
  cases h with
  | close hfills hcloses h =>
    rw [← List.append_assoc, ← List.cons_append]
    refine construct hcase ?_ h
    -- How the block is closed tells which block it is, and every block is opened by one tag only.
    cases hfills with
    | blanks hopener hblanks =>
      subst hopener
      cases hopens with
      | switch hsubject =>
        cases hcloses with
        | sections hgathers _ hsections =>
          cases hgathers
          exact .switch hsubject hblanks hsections
    | statements hopener hbody =>
      cases hopens with
      | condition htest =>
        cases hcloses with
        | branch hrest => exact .condition htest hbody hrest
        | sections hgathers => cases hgathers
      | loop hhead =>
        cases hcloses with
        | loop hclose => exact .loop hhead hbody hclose
        | loopElse hmark hrest hclose => exact .loopElse hhead hbody hmark hrest hclose
        | sections hgathers => cases hgathers
      | switch => exact absurd rfl (hopener _ _)
      | define htop hname hnames =>
        rw [nestingIn, htop] at hbody
        rw [htop]
        cases hcloses with
        | define hclose => exact .define hname hnames hbody hclose
        | sections hgathers => cases hgathers
      | custom hforeign hfound hhas hargs =>
        cases hcloses with
        | custom hclose => exact .custom hforeign hfound hhas hargs hbody hclose
        | sections hgathers => cases hgathers

/-- A part of a block that ends where another part of it begins. -/
theorem reopened {next : Opener} {item : Item}
    (h : p.Completes ((next, before) :: rest) [] draft items out draft')
    (hcloses : ∀ {body ss draft₁ tail s draft₂},
      p.Fills next (nestingIn ((next, before) :: rest)) draft body ss draft₁ →
      p.Closes (nestingIn rest).inside next ss draft₁ tail s draft₂ →
      p.Closes (nestingIn rest).inside opener current.reverse draft (item :: (body ++ tail)) s
        draft₂) :
    p.Completes ((opener, before) :: rest) current draft (item :: items) out draft' := by
  cases h with
  | close hfills htail h =>
    rw [← List.append_assoc, ← List.cons_append]
    exact close_now (hcloses hfills htail) h

/-- A divider that goes well ends a switch, or opens its next part. -/
theorem dividedSwitch {item : Item} {divider : Divider} {r : Blocks × Draft} {subject : Expr}
    {earlier : List Case} {first : Option Statement}
    (hgathers : Gathers opener current.reverse subject earlier first)
    (hitem : item.divider? = some divider)
    (hdivide : p.divide ⟨(opener, before) :: rest, current⟩ draft item.row divider = .ok r)
    (h : p.Completes r.1.stack r.1.current r.2 items out draft') :
    p.Completes ((opener, before) :: rest) current draft (item :: items) out draft' := by
  cases divider with
  | «end» =>
    rw [hgathers.divide_end, Except.ok.injEq] at hdivide
    subst hdivide
    refine ends ?_ h
    rw [← List.append_nil earlier, ← @Option.or_none _ first]
    exact .sections hgathers (.inr rfl) (.noSection hitem)
  | case parameters =>
    -- the case fills the block that it opens, and the other sections are those behind it
    obtain ⟨values, hvalues, hsome, rfl⟩ := hgathers.divide_case.mp hdivide
    refine reopened h fun hfills hcloses => ?_
    cases hfills with
    | blanks hopener => cases hopener
    | statements _ hbody =>
      cases hcloses with
      | sections hnext hfirst hsections =>
        cases hnext
        rw [List.append_assoc]
        exact .sections hgathers hfirst (.case hitem hvalues hsome hbody hsections)
  | default =>
    obtain ⟨rfl, rfl⟩ := hgathers.divide_default.mp hdivide
    refine reopened h fun hfills hcloses => ?_
    cases hfills with
    | blanks hopener => cases hopener
    | statements _ hbody =>
      cases hcloses with
      | sections hnext hfirst hsections =>
        cases hnext
        obtain rfl := hfirst.resolve_left nofun
        change p.Closes _ _ _ _ _ (.switch subject (earlier ++ _) ((Option.or none _).getD _)) _
        exact .sections hgathers (.inl rfl) (.default hitem hbody hsections)
  -- `#else` and `#elseif` do not go well in a switch
  | «else» => cases hgathers <;> cases hdivide
  | elseif parameters => cases hgathers <;> cases hdivide

/-- A divider that goes well ends a block, or opens the next part of one. -/
theorem divided {item : Item} {divider : Divider} {r : Blocks × Draft}
    (hitem : item.divider? = some divider)
    (hdivide : p.divide ⟨stack, current⟩ draft item.row divider = .ok r)
    (h : p.Completes r.1.stack r.1.current r.2 items out draft') :
    p.Completes stack current draft (item :: items) out draft' := by
  -- by the block that is open: no divider goes well outside all blocks
  cases stack with
  | nil => cases hdivide
  | cons block rest =>
    obtain ⟨opener, before⟩ := block
    cases opener with
    | switch | case | default => exact dividedSwitch (by constructor) hitem hdivide h
    | branch row earlier test =>
      -- a branch ends, or goes on with another branch or with the last one
      cases divider with
      | «end» =>
        cases hdivide
        refine ends ?_ h
        rw [Blocks.body, ofBranches_snoc]
        exact .branch (.noAlternative hitem)
      | «else» =>
        cases hdivide
        refine reopened h fun hfills hcloses => ?_
        cases hfills with
        | blanks hopener => cases hopener
        | statements _ hbody =>
          cases hcloses with
          | otherwise hclose =>
            rw [ofBranches_snoc]
            exact .branch (.otherwise hitem hbody hclose)
          | sections hgathers => cases hgathers
      | elseif parameters =>
        obtain ⟨next, hnext, hr⟩ := bind_eq_ok_iff.mp hdivide
        cases hr
        refine reopened h fun hfills hcloses => ?_
        cases hfills with
        | blanks hopener => cases hopener
        | statements _ hbody =>
          cases hcloses with
          | branch hrest =>
            rw [ofBranches_snoc]
            exact .branch (.elseif hitem hnext hbody hrest)
          | sections hgathers => cases hgathers
      | case | default => cases hdivide
    | otherwise row branches =>
      cases divider with
      -- no divider but `#end` goes well behind `#else`
      | «end» =>
        cases hdivide
        exact ends (.otherwise hitem) h
      | _ => cases hdivide
    | loop row head =>
      -- a loop ends, or goes on with what it does without entries
      cases divider with
      | «end» =>
        cases hdivide
        exact ends (.loop hitem) h
      | «else» =>
        cases hdivide
        refine reopened h fun hfills hcloses => ?_
        cases hfills with
        | blanks hopener => cases hopener
        | statements _ hbody =>
          cases hcloses with
          | loopOtherwise hclose => exact .loopElse hitem hbody hclose
          | sections hgathers => cases hgathers
      | elseif | case | default => cases hdivide
    | loopOtherwise row head body =>
      -- the blocks left have one part only, so they end
      cases divider with
      | «end» =>
        cases hdivide
        exact ends (.loopOtherwise hitem) h
      | _ => cases hdivide
    | define row name parameters =>
      cases divider with
      | «end» =>
        cases hdivide
        exact ends (.define hitem) h
      | _ => cases hdivide
    | custom row id directive args =>
      cases divider with
      | «end» =>
        cases hdivide
        exact ends (.custom hitem) h
      | _ => cases hdivide

/-- An item that goes well stands in front of what completes the blocks it leaves. -/
theorem step {b : Blocks} {item : Item} {r : Blocks × Draft} (hstep : p.Step b draft item r)
    (h : p.Completes r.1.stack r.1.current r.2 items out draft') :
    p.Completes b.stack b.current draft (item :: items) out draft' := by
  cases hstep with
  | @blank chars row hcase hblank =>
    obtain ⟨stack, current⟩ := b
    cases h with
    -- blanks are passed over in front of the first case only, so there is an open block
    | done => cases hcase
    | close hfills hcloses h =>
      cases hfills with
      | blanks hopener hblanks =>
        subst hopener
        have hblank : (Item.text chars row).IsBlank := hblank
        exact .close (.blanks rfl (List.forall_mem_cons.mpr ⟨hblank, hblanks⟩)) hcloses h
      | statements hopener _ => exact absurd hcase (not_awaitsCase hopener)
  | @text chars row hcase =>
    have htext : p.Derives (nestingIn b.stack) draft [.text chars row]
        (.statements (p.literals chars ++ [])) draft := .text chars row .nil
    rw [List.append_nil] at htext
    rw [← literals_reverse] at h
    exact prepend hcase htext h
  | divide hdivider hdivide => exact divided hdivider hdivide h
  | simple hcase hsimple => exact construct hcase (.simple hsimple) h
  | opens hcase hopens => exact opened hcase hopens h

end Completes

/-- **Soundness.** Items that go well and leave no block open complete the blocks that were open
before them. -/
theorem completes_of_addAll {items : List Item} {b b' : Blocks} {draft draft' : Draft}
    (h : p.addAll b draft items = .ok (b', draft')) (hclosed : b'.stack = []) :
    p.Completes b.stack b.current draft items b'.current.reverse draft' := by
  -- From the last item to the first: what comes later decides which blocks end where.
  induction items generalizing b draft with
  | nil =>
    obtain ⟨rfl, rfl⟩ := Prod.mk.inj (Except.ok.inj h)
    rw [hclosed, ← List.append_nil b.current.reverse]
    exact .done .nil
  | cons item rest ih =>
    obtain ⟨r, hitem, hrest⟩ := bind_eq_ok_iff.mp h
    exact (ih hrest).step (step_of_add hitem)

/-- What the items of a file are parsed as is derivable from them. -/
theorem derives_of_parseItems {draft draft' : Draft} {items : List Item} {s : Statement}
    (h : p.parseItems draft items = .ok (s, draft')) :
    ∃ ss, p.Derives .top draft items (.statements ss) draft' ∧ s = .ofList ss := by
  obtain ⟨⟨b, draft₁⟩, hall, h⟩ := bind_eq_ok_iff.mp h
  dsimp only at h
  split at h
  · rename_i hclosed
    obtain ⟨rfl, rfl⟩ := Prod.mk.inj (Except.ok.inj h)
    have hcompletes := completes_of_addAll hall hclosed
    generalize hout : b.current.reverse = out at hcompletes
    cases hcompletes with
    | done hderives => exact ⟨_, hderives, by rw [Blocks.body, hout]; rfl⟩
  · cases h

/-- **The parser accepts exactly the block grammar.** The items of a file can be parsed if and only
if they are derivable, outside all blocks, as a list of statements; and what they are parsed as is
this list as one statement, with the functions, sources and sites of the derivation. -/
theorem parseItems_eq_ok_iff (p : Parsing) (draft draft' : Draft) (items : List Item)
    (s : Statement) :
    p.parseItems draft items = .ok (s, draft') ↔
      ∃ ss, p.Derives .top draft items (.statements ss) draft' ∧ s = .ofList ss := by
  constructor
  · exact derives_of_parseItems
  · rintro ⟨ss, hderives, rfl⟩
    have hruns := hderives.runs {} rfl rfl
    refine bind_eq_ok_iff.mpr ⟨_, hruns, ?_⟩
    change Except.ok (Statement.ofList (ss.reverse ++ []).reverse, draft') = _
    rw [List.append_nil, List.reverse_reverse]

end Parsing

end Stencil
