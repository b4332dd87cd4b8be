import Stencil.Proofs.Expr.Locations
import Stencil.Proofs.Template.Blocks
import Stencil.Proofs.Template.Failures
import Stencil.Proofs.Template.Locality
import Stencil.Proofs.Template.Tokens

/-!
# The rows in the expressions of a template

A template that has been compiled holds the expressions of its tags, and they hold the rows that
errors name. Here these rows are compared with the text: the tokens that spell an expression stand
in the parameters of a tag, each in the row that it has there (`Expr.StandsIn`).

* All parameters of a file that is parsed without an error have been scanned for tokens, so there is
  no escaped line feed among them (`Parsing.Derives.scanned`), and the rows of its tags are exact
  (`parameters_place`).
* What the parser makes of a tag is spelled by the tokens of its parameters, and what it makes of
  the items of a file holds the expressions of their tags and those of the files that are included
  (`Parsing.Derives.collects`, by induction on the derivation).

Main definitions: `Statement.exprs`, `Expr.StandsIn`. Main statement: `compile_locations`.
-/

namespace Stencil

/-! ### The expressions of a template -/

/-- The expressions of what is called. -/
def Callee.exprs : Callee → List Expr
  | named _ => []
  | computed name => [name]

mutual

/-- The expressions that a statement holds, those of its parts included. -/
def Statement.exprs : Statement → List Expr
  | .nothing | .text _ | .definition _ | .jump _ => []
  | .output value => [value]
  | .condition test yes no => test :: (yes.exprs ++ no.exprs)
  | .loop head body otherwise => head.exprs ++ (body.exprs ++ otherwise.exprs)
  | .switch subject cases otherwise => subject :: (exprsOfCases cases ++ otherwise.exprs)
  | .call callee args _ _ => callee.exprs ++ args
  | .inlined assignments body => assignments ++ body.exprs
  | .render _ assignments _ _ | .assign _ assignments => assignments
  | .custom _ args body _ => args ++ body.exprs
  | .block statements => exprsOfAll statements

/-- The expressions of statements. -/
def exprsOfAll : List Statement → List Expr
  | [] => []
  | s :: rest => s.exprs ++ exprsOfAll rest

/-- The expressions of cases. -/
def exprsOfCases : List Case → List Expr
  | [] => []
  | .mk values body :: rest => values ++ body.exprs ++ exprsOfCases rest

end

/-- The expressions of a template and of the functions that it defines. -/
def Compiled.exprs (unit : Compiled) : List Expr :=
  unit.body.exprs ++ unit.functions.entries.flatMap (·.2.body.exprs)

/-- The expressions of what items make up. -/
def Parsing.Part.exprs : Parsing.Part → List Expr
  | .statements ss => exprsOfAll ss
  | .statement s | .alternative s => s.exprs
  | .sections cases fallback => exprsOfCases cases ++ (fallback.getD .nothing).exprs

/-- A list of statements holds the expressions of all of them. -/
@[simp] theorem exprs_ofList (ss : List Statement) :
    (Statement.ofList ss).exprs = exprsOfAll ss := by
  cases ss with
  | nil => rfl
  | cons s rest =>
    cases rest with
    | nil => exact (List.append_nil _).symm
    | cons => rfl

/-- The expressions of statements, one part after the other. -/
@[simp] theorem exprsOfAll_append (ss ss' : List Statement) :
    exprsOfAll (ss ++ ss') = exprsOfAll ss ++ exprsOfAll ss' := by
  induction ss with
  | nil => rfl
  | cons s rest ih => rw [List.cons_append, exprsOfAll, exprsOfAll, ih, List.append_assoc]

/-- A literal text holds no expression. -/
@[simp] theorem exprsOfAll_literals (p : Parsing) (chars : List Char) :
    exprsOfAll (p.literals chars) = [] := by
  rcases p.literals_eq chars with h | ⟨content, h⟩
  · rw [h]
    rfl
  · rw [h]
    rfl

/-! ### Parameters that have been scanned -/

/-- The parameters of a tag in a row have been scanned for tokens. Words that are tags without
parameters are left out. -/
def Tag.Scanned (row : Nat) (tag : Tag) : Prop :=
  ∀ parameters, tag.parameters? = some parameters → tag.id ∉ plainWords →
    ∃ ts last, scanTokens row parameters.toList = .ok (ts, last)

/-- The parameters of a divider. -/
def Divider.parameters? : Divider → Option String
  | .end | .else | .default => none
  | .elseif parameters | .case parameters => some parameters

/-- What divides a block is a word without parameters, or a tag with the parameters of the
divider. -/
theorem Item.eq_of_divider? {item : Item} {divider : Divider} (h : item.divider? = some divider) :
    ∃ id q, item = .tag (.directive id q) item.row ∧
      (divider.parameters? = none → id ∈ plainWords) ∧
      ∀ parameters ∈ divider.parameters?, q = some parameters := by
  cases item with
  | text => cases h
  | tag t row =>
    change Divider.ofTag? t = some divider at h
    unfold Divider.ofTag? at h
    -- the plain words, then `#elseif` and `#case`
    split at h
    all_goals cases h
    · exact ⟨_, _, rfl, fun _ => by decide, nofun⟩
    · exact ⟨_, _, rfl, fun _ => by decide, nofun⟩
    · exact ⟨_, _, rfl, fun _ => by decide, nofun⟩
    · exact ⟨_, _, rfl, nofun, by rintro _ ⟨⟩; rfl⟩
    · exact ⟨_, _, rfl, nofun, by rintro _ ⟨⟩; rfl⟩

namespace Parsing

variable {p : Parsing} {nesting : Nesting} {draft draft' : Draft}

/-- Expressions that are read have been scanned, and spell out their tokens. -/
theorem exprs_scanned {row : Nat} {parameters : String} {es : List Expr}
    (h : p.exprs row parameters = .ok es) :
    ∃ ts last, scanTokens row parameters.toList = .ok (ts, last) ∧ SpellsList p.file es ts :=
  spells_of_parseExprs (mapError_eq_ok_iff.1 h)

/-- So has a single expression. -/
theorem singleExpr_scanned {row : Nat} {parameters directive : String} {e : Expr}
    (h : p.singleExpr row parameters directive = .ok e) :
    ∃ ts last, scanTokens row parameters.toList = .ok (ts, last) ∧ SpellsList p.file [e] ts := by
  obtain ⟨es, hes, h⟩ := bind_eq_ok_iff.1 h
  obtain ⟨ts, last, hscan, hspells⟩ := exprs_scanned hes
  refine ⟨ts, last, hscan, ?_⟩
  split at h
  · obtain rfl := Except.ok.inj h
    exact hspells
  · cases h
  · cases h

/-- So has a target with its assignments. -/
theorem target_scanned {row : Nat} {parameters directive name : String} {assignments : List Expr}
    (h : p.target row parameters directive = .ok (name, assignments)) :
    ∃ ts last, scanTokens row parameters.toList = .ok (ts, last) ∧
      ∃ first, SpellsList p.file (first :: assignments) ts := by
  obtain ⟨es, hes, h⟩ := bind_eq_ok_iff.1 h
  obtain ⟨ts, last, hscan, hspells⟩ := exprs_scanned hes
  refine ⟨ts, last, hscan, ?_⟩
  -- the parameters of a target are a string and assignments, all of them scanned together
  split at h
  · split at h
    · obtain ⟨-, rfl⟩ := Prod.mk.inj (Except.ok.inj h)
      exact ⟨_, hspells⟩
    · cases h
  · cases h

end Parsing

/-- A tag whose parameters are scanned is scanned, whatever its name. -/
theorem Tag.scanned_directive (id : String) {parameters : Option String} {row : Nat}
    {P : List Token → Prop}
    (h : ∃ ts last, scanTokens row (parameters.getD "").toList = .ok (ts, last) ∧ P ts) :
    (Tag.directive id parameters).Scanned row := by
  intro ps hps _
  obtain rfl : parameters = some ps := hps
  obtain ⟨ts, last, hscan, -⟩ := h
  exact ⟨ts, last, hscan⟩

/-- The parameters of an item, if it is a tag, have been scanned. -/
def Item.Scanned : Item → Prop
  | .text .. => True
  | .tag t row => t.Scanned row

/-- A blank text has no parameters. -/
theorem Item.scanned_of_isBlank {item : Item} (h : item.IsBlank) : item.Scanned := by
  cases item with
  | text => exact trivial
  | tag => exact h.elim

/-- A divider without parameters is a plain word. -/
theorem Item.scanned_of_divider? {item : Item} {divider : Divider}
    (h : item.divider? = some divider) (hnone : divider.parameters? = none) : item.Scanned := by
  obtain ⟨id, q, heq, hplain, -⟩ := Item.eq_of_divider? h
  rw [heq]
  intro _ _ hid
  exact absurd (hplain hnone) hid

/-- A divider with parameters is scanned if they are. -/
theorem Item.scanned_of_parameters {item : Item} {divider : Divider} {parameters : String}
    {P : List Token → Prop} (h : item.divider? = some divider)
    (hsome : divider.parameters? = some parameters)
    (hscan : ∃ ts last, scanTokens item.row parameters.toList = .ok (ts, last) ∧ P ts) :
    item.Scanned := by
  obtain ⟨id, q, heq, -, hq⟩ := Item.eq_of_divider? h
  obtain rfl := hq parameters hsome
  rw [heq]
  exact Tag.scanned_directive _ hscan

namespace Parsing

variable {p : Parsing} {nesting : Nesting} {draft draft' : Draft}

/-- The parameters of a statement have been scanned. -/
theorem Simple.scanned {row : Nat} {tag : Tag} {s : Statement}
    (h : p.Simple nesting draft row tag s draft') : tag.Scanned row := by
  cases h with
  | output h => exact Tag.scanned_directive _ (singleExpr_scanned h)
  | assign _ h => exact Tag.scanned_directive _ (exprs_scanned h)
  | inlined h =>
    obtain ⟨_, _, _, _, htarget, -⟩ := includeFile_eq_ok_iff.1 h
    exact Tag.scanned_directive _ (target_scanned htarget)
  | render h => exact Tag.scanned_directive _ (target_scanned h)
  | call h | callIfDefined h => exact Tag.scanned_directive _ (exprs_scanned h)
  | callByName h =>
    rintro _ ⟨⟩ -
    obtain ⟨ts, last, hscan, -⟩ := exprs_scanned h
    exact ⟨ts, last, hscan⟩
  -- these are plain words
  | leave | resume | finish =>
    intro _ _ hid
    exact absurd (by simp [Tag.id, plainWords]) hid
  | custom _ _ _ h => exact Tag.scanned_directive _ (exprs_scanned h)

/-- **All parameters have been scanned**, in a file that is parsed without an error. -/
theorem Derives.scanned {items : List Item} {part : Part}
    (h : p.Derives nesting draft items part draft') : ∀ item ∈ items, item.Scanned := by
  -- every construct is its tag, its body, and the divider that closes it or goes on with it
  -- by induction on the derivation: a construct is scanned tag by tag
  induction h with
  | nil => exact List.forall_mem_nil _
  | text _ _ _ ih => exact List.forall_mem_cons.2 ⟨trivial, ih⟩
  | next _ _ ih ih' => exact List.forall_mem_append.2 ⟨ih, ih'⟩
  | simple h => exact List.forall_mem_singleton.2 h.scanned
  | condition htest _ _ ih ih' =>
    have htag := Tag.scanned_directive "if" (singleExpr_scanned htest)
    exact List.forall_mem_append.2 ⟨List.forall_mem_cons.2 ⟨htag, ih⟩, ih'⟩
  | noAlternative h | noSection h =>
    exact List.forall_mem_singleton.2 (Item.scanned_of_divider? h rfl)
  | otherwise hmark _ hclose ih =>
    exact List.forall_mem_append.2 ⟨List.forall_mem_cons.2 ⟨Item.scanned_of_divider? hmark rfl, ih⟩,
      List.forall_mem_singleton.2 (Item.scanned_of_divider? hclose rfl)⟩
  | elseif hmark htest _ _ ih ih' =>
    have htag := Item.scanned_of_parameters hmark rfl (singleExpr_scanned htest)
    exact List.forall_mem_append.2 ⟨List.forall_mem_cons.2 ⟨htag, ih⟩, ih'⟩
  | loop hhead _ hclose ih =>
    have htag := Tag.scanned_directive "for" (spells_of_parseLoopHead hhead)
    exact List.forall_mem_append.2 ⟨List.forall_mem_cons.2 ⟨htag, ih⟩,
      List.forall_mem_singleton.2 (Item.scanned_of_divider? hclose rfl)⟩
  | loopElse hhead _ hmark _ hclose ih ih' =>
    have htag := Tag.scanned_directive "for" (spells_of_parseLoopHead hhead)
    have helse := List.forall_mem_cons.2 ⟨Item.scanned_of_divider? hmark rfl, ih'⟩
    exact List.forall_mem_append.2 ⟨List.forall_mem_cons.2 ⟨htag, ih⟩, List.forall_mem_append.2
      ⟨helse, List.forall_mem_singleton.2 (Item.scanned_of_divider? hclose rfl)⟩⟩
  | switch hsubject hblanks _ ih =>
    have htag := Tag.scanned_directive "switch" (singleExpr_scanned hsubject)
    have hbetween := fun item hitem => Item.scanned_of_isBlank (hblanks item hitem)
    exact List.forall_mem_append.2 ⟨List.forall_mem_cons.2 ⟨htag, hbetween⟩, ih⟩
  | case hmark hvalues _ _ _ ih ih' =>
    have htag := Item.scanned_of_parameters hmark rfl (exprs_scanned hvalues)
    exact List.forall_mem_append.2 ⟨List.forall_mem_cons.2 ⟨htag, ih⟩, ih'⟩
  | default hmark _ _ ih ih' =>
    exact List.forall_mem_append.2
      ⟨List.forall_mem_cons.2 ⟨Item.scanned_of_divider? hmark rfl, ih⟩, ih'⟩
  | @define _ _ name parameters row _ _ _ _ _ hnames _ hclose ih =>
    have htag : Item.Scanned (.tag (.define name parameters) row) := by
      rintro _ ⟨⟩ -
      obtain ⟨ts, last, _, _, hscan, -⟩ := Parse.exists_of_parseWith hnames
      exact ⟨ts, last, hscan⟩
    exact List.forall_mem_append.2 ⟨List.forall_mem_cons.2 ⟨htag, ih⟩,
      List.forall_mem_singleton.2 (Item.scanned_of_divider? hclose rfl)⟩
  | @custom _ _ _ id _ _ _ _ _ _ _ _ _ _ hargs _ hclose ih =>
    have htag := Tag.scanned_directive id (exprs_scanned hargs)
    exact List.forall_mem_append.2 ⟨List.forall_mem_cons.2 ⟨htag, ih⟩,
      List.forall_mem_singleton.2 (Item.scanned_of_divider? hclose rfl)⟩

end Parsing

/-! ### Where parameters stand -/

/-- The parameters of a tag that is read in a text stand behind `front`, the text up to their
parenthesis. -/
def ParametersIn (text front : List Char) (parameters : String) : Prop :=
  ∃ tags before opener tag rest,
    ReadsTo text tags before ('#' :: (opener ++ '(' :: (parameters.toList ++ ')' :: rest))) ∧
      TagReads (opener ++ '(' :: (parameters.toList ++ ')' :: rest)) tag rest ∧
      tag.parameters? = some parameters ∧ front = before ++ '#' :: (opener ++ ['('])

/-- Behind its parameters, a tag has the rest of the text. -/
theorem ParametersIn.eq_append {text front : List Char} {parameters : String}
    (h : ParametersIn text front parameters) :
    ∃ rest, text = front ++ (parameters.toList ++ ')' :: rest) := by
  obtain ⟨tags, before, opener, tag, rest, hreads, -, -, rfl⟩ := h
  exact ⟨rest, by simp [hreads.eq_append]⟩

/-- In front of its parameters a tag has no line feed. -/
theorem TagReads.opener {cs rest : List Char} {tag : Tag} {parameters : String}
    (h : TagReads cs tag rest) (hp : tag.parameters? = some parameters) :
    tag.id ∉ plainWords ∧ ∃ opener, cs = opener ++ '(' :: (parameters.toList ++ ')' :: rest) ∧
      lineFeeds opener = 0 := by
  -- between the name and the parenthesis stand spaces, and a question mark at most
  have harguments {after p : List Char} (h : Arguments after p rest) :
      ∃ spaces, after = spaces ++ '(' :: (p ++ ')' :: rest) ∧ lineFeeds spaces = 0 := by
    obtain ⟨hspaces, -⟩ := h
    exact ⟨_, rfl, lineFeeds_of_not_mem hspaces.not_mem⟩
  have hmark {mark : Option Char} (h : ∀ c ∈ mark, c = '?') : lineFeeds mark.toList = 0 := by
    cases mark with
    | none => rfl
    | some c =>
      obtain rfl := h c rfl
      rfl
  cases h with
  -- each kind of tag has its own opener in front of the parenthesis
  | @output p =>
    obtain rfl := Option.some.inj hp
    exact ⟨by simp [Tag.id, plainWords], [], by simp, rfl⟩
  | @call name rest after p mark _ hname hm ha =>
    obtain rfl := Option.some.inj hp
    obtain ⟨spaces, rfl, hspaces⟩ := harguments ha
    refine ⟨by simp [Tag.id, plainWords], '@' :: (name ++ (mark.toList ++ spaces)), by simp, ?_⟩
    rw [lineFeeds_cons_of_ne (by decide), lineFeeds_append, lineFeeds_append,
      lineFeeds_of_not_mem hname.not_mem, hmark hm, hspaces]
  | plain => cases hp
  | @define blanks name after p rest _ hblanks _ hname ha =>
    obtain rfl := Option.some.inj hp
    obtain ⟨spaces, rfl, hspaces⟩ := harguments ha
    refine ⟨by simp [Tag.id, plainWords], "define".toList ++ (blanks ++ (name ++ spaces)), by simp, ?_⟩
    rw [lineFeeds_append, lineFeeds_append, lineFeeds_append, lineFeeds_of_not_mem hblanks.not_mem,
      lineFeeds_of_not_mem hname.not_mem, hspaces]
    decide
  | @named c word after p rest mark hc hword hplain hdefine hm ha =>
    obtain rfl := Option.some.inj hp
    obtain ⟨spaces, rfl, hspaces⟩ := harguments ha
    have hfeed : c ≠ '\n' := ne_lineFeed_of (p := isTagStart) (by decide) c hc
    refine ⟨?_, c :: (word ++ (mark.toList ++ spaces)), by simp, ?_⟩
    · -- A mark is part of the name of `#call?` only.
      cases mark with
      | none => simpa [Tag.id] using hplain
      | some d =>
        obtain ⟨hcall, rfl⟩ := hm d rfl
        simp [Tag.id, hcall, plainWords]
    · rw [lineFeeds_cons_of_ne hfeed, lineFeeds_append, lineFeeds_append,
        lineFeeds_of_not_mem hword.not_mem, hmark fun d hd => (hm d hd).2, hspaces]

section

variable {keep : List String} {text : List Char} {items : List Item} {tag : Tag} {row : Nat}

/-- In a file whose parameters have been scanned no line feed goes uncounted. -/
theorem escapedFeeds_of_scanned (hitems : itemsOf keep text = .ok items)
    (hscanned : ∀ item ∈ items, item.Scanned) (htag : .tag tag row ∈ items) :
    tag.escapedFeeds = 0 := by
  obtain ⟨before, after, hsplit⟩ := List.append_of_mem htag
  obtain ⟨front, cs, rest, -, hreads, -⟩ := row_of_tag hitems hsplit
  rw [Tag.escapedFeeds]
  split
  -- a tag without parameters has no line feeds to count
  · rfl
  · rename_i parameters hp
    obtain ⟨hplain, -⟩ := hreads.opener hp
    obtain ⟨ts, last, hscan⟩ := hscanned _ htag parameters hp hplain
    exact escapedFeeds_of_scanTokens hscan

/-- **Rows of parameters.** In a file whose parameters have been scanned, the row of a tag is the one
in which its parameters begin. -/
theorem parameters_place (hitems : itemsOf keep text = .ok items)
    (hscanned : ∀ item ∈ items, item.Scanned) (htag : .tag tag row ∈ items) {parameters : String}
    (hp : tag.parameters? = some parameters) :
    ∃ front, ParametersIn text front parameters ∧ row = 1 + lineFeeds front := by
  obtain ⟨before, after, hsplit⟩ := List.append_of_mem htag
  obtain ⟨front, cs, rest, hfront, hreads, hrow⟩ := row_of_tag hitems hsplit
  obtain ⟨-, opener, rfl, hopener⟩ := hreads.opener hp
  refine ⟨front ++ '#' :: (opener ++ ['(']), ⟨_, front, opener, tag, rest, hfront, hreads, hp, rfl⟩,
    ?_⟩
  have hcounted : uncounted (tagsAmong before) = 0 := by
    rw [uncounted, List.sum_eq_zero_iff, List.forall_mem_map]
    -- no tag in front holds a line feed that goes uncounted
    intro t ht
    obtain ⟨⟨t', r⟩, hplaced, rfl⟩ := List.mem_map.1 ht
    obtain ⟨item, hitem, hsome⟩ := List.mem_filterMap.1 hplaced
    cases item with
    | text => cases hsome
    | tag t r' =>
      cases hsome
      exact escapedFeeds_of_scanned hitems hscanned
        (hsplit ▸ List.mem_append_left _ hitem)
  rw [hcounted] at hrow
  rw [lineFeeds_append, lineFeeds_cons_of_ne (by decide), lineFeeds_append, hopener]
  exact hrow

end

/-- An expression is spelled by tokens of the parameters of a tag in the text of a file, each of
which is in its row. -/
def Expr.StandsIn (text : List Char) (file : Option String) (e : Expr) : Prop :=
  ∃ front parameters ts, ParametersIn text front parameters ∧
    TokensOf front parameters.toList ts ∧ SpelledIn file ts e

/-- The functions of a draft hold only expressions of a kind. -/
def Draft.Holds (P : Expr → Prop) (draft : Draft) : Prop :=
  ∀ entry ∈ draft.functions.entries, ∀ e ∈ entry.2.body.exprs, P e

/-- What has been read from one draft to another one: sources are only added, and if all of them
are known then the expressions that were read are of a kind. -/
structure Collects (known : List Source) (P : Expr → Prop) (draft draft' : Draft) (es : List Expr) :
    Prop where
  sources : draft.sources ⊆ draft'.sources
  exprs : draft'.sources ⊆ known → ∀ e ∈ es, P e
  functions : draft'.sources ⊆ known → draft.Holds P → draft'.Holds P

namespace Collects

variable {known : List Source} {P : Expr → Prop} {draft draft₁ draft' : Draft} {es es' : List Expr}

/-- Expressions of the kind, with nothing else read. -/
theorem here (h : ∀ e ∈ es, P e) : Collects known P draft draft es :=
  ⟨List.Subset.refl _, fun _ => h, fun _ => id⟩

theorem nothing : Collects known P draft draft [] := here (List.forall_mem_nil _)

/-- One part of the text after the other. -/
theorem trans (h : Collects known P draft draft₁ es) (h' : Collects known P draft₁ draft' es') :
    Collects known P draft draft' (es ++ es') where
  sources := List.Subset.trans h.sources h'.sources
  exprs hknown := List.forall_mem_append.2
    ⟨h.exprs (List.Subset.trans h'.sources hknown), h'.exprs hknown⟩
  functions hknown hholds :=
    h'.functions hknown (h.functions (List.Subset.trans h'.sources hknown) hholds)

theorem mono (h : Collects known P draft draft' es) (hes : es' ⊆ es) :
    Collects known P draft draft' es' :=
  { h with exprs := fun hknown e he => h.exprs hknown e (hes he) }

/-- Behind expressions that are of the kind anyway. -/
theorem behind (h : Collects known P draft draft' es') (hes : ∀ e ∈ es, P e) :
    Collects known P draft draft' (es ++ es') := (here hes).trans h

end Collects

namespace Parsing

variable {p : Parsing} {nesting : Nesting} {draft draft' : Draft} {known : List Source}
  {P : Expr → Prop}

/-- The tokens of the parameters of an item spell only expressions of a kind. -/
def ItemHolds (p : Parsing) (P : Expr → Prop) : Item → Prop
  | .text .. => True
  | .tag t row => ∀ parameters, t.parameters? = some parameters → ∀ ts last,
      scanTokens row parameters.toList = .ok (ts, last) → ∀ e, SpelledIn p.file ts e → P e

/-- Included files hold only expressions of a kind. -/
def IncludesCollect (p : Parsing) (known : List Source) (P : Expr → Prop) : Prop :=
  ∀ {source draft r}, p.nested source draft = .ok r → Collects known P draft r.2 r.1.exprs

/-- What the tokens of a directive spell. Without parameters there is nothing to spell. -/
theorem holds_of_scanned {id : String} {parameters : Option String} {row : Nat}
    (h : p.ItemHolds P (.tag (.directive id parameters) row)) {ts : List Token} {last : Nat}
    (hscan : scanTokens row (parameters.getD "").toList = .ok (ts, last)) {e : Expr}
    (he : SpelledIn p.file ts e) : P e := by
  cases parameters with
  -- an absent parameter is an empty text, which has no tokens
  | none =>
    have hnone : scanTokens row "".toList = .ok ([], row) := by
      rw [scanTokens.eq_def]
      rfl
    obtain ⟨rfl, -⟩ := Prod.mk.inj (Except.ok.inj (hnone.symm.trans hscan))
    obtain ⟨us, hus, hspelled⟩ := he
    exact absurd (List.infix_nil.1 hus) hspelled.ne_nil
  | some parameters => exact h parameters rfl ts last hscan e he

/-- What the tokens of a divider spell. -/
theorem holds_of_divider? {mark : Item} {divider : Divider} {parameters : String}
    (h : p.ItemHolds P mark) (hmark : mark.divider? = some divider)
    (hsome : divider.parameters? = some parameters) {ts : List Token} {last : Nat}
    (hscan : scanTokens mark.row parameters.toList = .ok (ts, last)) {e : Expr}
    (he : SpelledIn p.file ts e) : P e := by
  obtain ⟨id, q, heq, -, hq⟩ := Item.eq_of_divider? hmark
  obtain rfl := hq parameters hsome
  rw [heq] at h
  exact holds_of_scanned h hscan he

/-- A call holds expressions that are spelled among the tokens of its tag. -/
theorem spelledIn_callOf {row : Nat} {ifDefined : Bool} {es : List Expr} {s : Statement}
    {ts : List Token} (h : p.callOf row ifDefined es = .ok s) (hes : SpellsList p.file es ts) :
    ∀ e ∈ s.exprs, SpelledIn p.file ts e := by
  unfold callOf at h
  split at h
  -- a call without a name is refused
  · cases h
  -- a lone call keeps its arguments
  · cases h
    intro e he
    exact (hes.spelledIn (List.mem_singleton_self _)).call he
  -- any other call keeps its expressions, the callee first
  · cases h
    intro e he
    exact hes.spelledIn he

/-- A tag that is a statement by itself holds its expressions and those of the included file. -/
theorem Simple.collects (hp : p.IncludesCollect known P) {row : Nat} {tag : Tag} {s : Statement}
    (h : p.Simple nesting draft row tag s draft') (htag : p.ItemHolds P (.tag tag row)) :
    Collects known P draft draft' s.exprs := by
  cases h with
  | output h =>
    obtain ⟨ts, last, hscan, hspells⟩ := singleExpr_scanned h
    exact .here fun e he => holds_of_scanned htag hscan (hspells.spelledIn he)
  | assign _ h =>
    obtain ⟨ts, last, hscan, hspells⟩ := exprs_scanned h
    exact .here fun e he => holds_of_scanned htag hscan (hspells.spelledIn he)
  -- the file name, which is the first expression, is not kept
  | inlined h =>
    obtain ⟨_, assignments, _, _, htarget, -, -, hnested, rfl⟩ := includeFile_eq_ok_iff.1 h
    obtain ⟨ts, last, hscan, first, hspells⟩ := target_scanned htarget
    exact (hp hnested).behind fun e he =>
      holds_of_scanned htag hscan (hspells.spelledIn (List.mem_cons_of_mem first he))
  | render h =>
    obtain ⟨ts, last, hscan, first, hspells⟩ := target_scanned h
    refine ⟨List.Subset.refl _, fun _ e he => ?_, fun _ => id⟩
    exact holds_of_scanned htag hscan (hspells.spelledIn (List.mem_cons_of_mem first he))
  | call h hs | callIfDefined h hs =>
    obtain ⟨ts, last, hscan, hspells⟩ := exprs_scanned h
    exact .here fun e he => holds_of_scanned htag hscan (spelledIn_callOf hs hspells e he)
  | callByName h =>
    obtain ⟨ts, last, hscan, hspells⟩ := exprs_scanned h
    exact .here fun e he => htag _ rfl ts last hscan e (hspells.spelledIn he)
  -- the plain words have no expressions
  | leave | resume | finish => exact .nothing
  | custom _ _ _ h =>
    obtain ⟨ts, last, hscan, hspells⟩ := exprs_scanned h
    exact .mono (.here fun e he => holds_of_scanned htag hscan (hspells.spelledIn he))
      (by simp [Statement.exprs])

/-- **What the grammar derives holds the expressions of the tags**, and those of included files. -/
theorem Derives.collects (hp : p.IncludesCollect known P) {items : List Item} {part : Part}
    (h : p.Derives nesting draft items part draft') (hitems : ∀ item ∈ items, p.ItemHolds P item) :
    Collects known P draft draft' part.exprs := by
  -- by induction on the derivation: each construct brings the expressions of its own tag
  induction h with
  | nil => exact .nothing
  | text chars _ _ ih =>
    have hrest := ih (List.forall_mem_cons.1 hitems).2
    exact hrest.mono (by simp [Part.exprs])
  | next _ _ ih ih' =>
    obtain ⟨hfront, hrest⟩ := List.forall_mem_append.1 hitems
    exact (ih hfront).trans (ih' hrest)
  | simple h => exact h.collects hp (List.forall_mem_singleton.1 hitems)
  -- the expressions of the tag come first, and then those of the body and of the rest
  | condition htest _ _ ih ih' =>
    obtain ⟨hblock, hrest⟩ := List.forall_mem_append.1 hitems
    obtain ⟨htag, hbody⟩ := List.forall_mem_cons.1 hblock
    obtain ⟨ts, last, hscan, hspells⟩ := singleExpr_scanned htest
    refine .mono (((ih hbody).trans (ih' hrest)).behind fun e he =>
      holds_of_scanned htag hscan (hspells.spelledIn he)) (by simp [Part.exprs, Statement.exprs])
  | noAlternative => exact .nothing
  | otherwise _ _ _ ih =>
    obtain ⟨hblock, -⟩ := List.forall_mem_append.1 hitems
    exact (ih (List.forall_mem_cons.1 hblock).2).mono (by simp [Part.exprs])
  | elseif hmark htest _ _ ih ih' =>
    obtain ⟨hblock, hrest⟩ := List.forall_mem_append.1 hitems
    obtain ⟨htag, hbody⟩ := List.forall_mem_cons.1 hblock
    obtain ⟨ts, last, hscan, hspells⟩ := singleExpr_scanned htest
    refine .mono (((ih hbody).trans (ih' hrest)).behind fun e he =>
      holds_of_divider? htag hmark rfl hscan (hspells.spelledIn he))
        (by simp [Part.exprs, Statement.exprs])
  | loop hhead _ _ ih =>
    obtain ⟨hblock, -⟩ := List.forall_mem_append.1 hitems
    obtain ⟨htag, hbody⟩ := List.forall_mem_cons.1 hblock
    obtain ⟨ts, last, hscan, hspells⟩ := spells_of_parseLoopHead hhead
    refine .mono ((ih hbody).behind fun e he =>
      holds_of_scanned htag hscan (hspells.spelledIn he)) (by simp [Part.exprs, Statement.exprs])
  | loopElse hhead _ _ _ _ ih ih' =>
    obtain ⟨hblock, hrest⟩ := List.forall_mem_append.1 hitems
    obtain ⟨htag, hbody⟩ := List.forall_mem_cons.1 hblock
    obtain ⟨helse, -⟩ := List.forall_mem_append.1 hrest
    obtain ⟨ts, last, hscan, hspells⟩ := spells_of_parseLoopHead hhead
    refine .mono (((ih hbody).trans (ih' (List.forall_mem_cons.1 helse).2)).behind fun e he =>
      holds_of_scanned htag hscan (hspells.spelledIn he)) (by simp [Part.exprs, Statement.exprs])
  | switch hsubject _ _ ih =>
    obtain ⟨hblock, hrest⟩ := List.forall_mem_append.1 hitems
    obtain ⟨htag, -⟩ := List.forall_mem_cons.1 hblock
    obtain ⟨ts, last, hscan, hspells⟩ := singleExpr_scanned hsubject
    refine .mono ((ih hrest).behind fun e he =>
      holds_of_scanned htag hscan (hspells.spelledIn he)) (by simp [Part.exprs, Statement.exprs])
  | noSection => exact .nothing
  | case hmark hvalues _ _ _ ih ih' =>
    obtain ⟨hblock, hrest⟩ := List.forall_mem_append.1 hitems
    obtain ⟨htag, hbody⟩ := List.forall_mem_cons.1 hblock
    obtain ⟨ts, last, hscan, hspells⟩ := exprs_scanned hvalues
    refine .mono (((ih hbody).trans (ih' hrest)).behind fun e he =>
      holds_of_divider? htag hmark rfl hscan (hspells.spelledIn he))
        (by simp [Part.exprs, exprsOfCases])
  | default _ _ _ ih ih' =>
    obtain ⟨hblock, hrest⟩ := List.forall_mem_append.1 hitems
    refine .mono ((ih (List.forall_mem_cons.1 hblock).2).trans (ih' hrest)) ?_
    simp [Part.exprs]
  -- the body is kept with the function, so its expressions join those of the draft
  | define _ _ _ _ ih =>
    obtain ⟨hblock, -⟩ := List.forall_mem_append.1 hitems
    have hbody := ih (List.forall_mem_cons.1 hblock).2
    refine ⟨hbody.sources, fun _ => List.forall_mem_nil _, fun hknown hholds entry hentry => ?_⟩
    -- the new function has the body that has been read, and the others were there before
    rcases Assoc.mem_write hentry with rfl | hold
    · simpa [Part.exprs] using hbody.exprs hknown
    · exact hbody.functions hknown hholds entry hold
  | custom _ _ _ hargs _ _ ih =>
    obtain ⟨hblock, -⟩ := List.forall_mem_append.1 hitems
    obtain ⟨htag, hbody⟩ := List.forall_mem_cons.1 hblock
    obtain ⟨ts, last, hscan, hspells⟩ := exprs_scanned hargs
    refine .mono ((ih hbody).behind fun e he =>
      holds_of_scanned htag hscan (hspells.spelledIn he)) (by simp [Part.exprs, Statement.exprs])

end Parsing

/-! ### Compiled templates -/

section

variable {config : Config} {files : Files} {source : Source}

/-- **Files with what they include.** By induction on the nesting: the expressions that are read
stand in the texts of the sources that are read. -/
theorem parseFile_collects {known : List Source} {P : Expr → Prop} {depth : Nat}
    {opened : List String} {draft : Draft} {r : Statement × Draft}
    (hP : ∀ s ∈ known, ∀ content, s.content files = .ok content →
      ∀ e : Expr, e.StandsIn content.toList s.fileName? → P e)
    (h : parseFile config files depth opened source draft = .ok r) :
    Collects known P draft r.2 r.1.exprs := by
  induction depth generalizing opened source draft r with
  | zero => cases h
  | succ depth ih =>
    have hsources := parseFile_sources h
    obtain ⟨content, items, hcontent, hitems, hparse⟩ := parseFile_eq_ok h
    obtain ⟨ss, hderives, hr⟩ := Parsing.derives_of_parseItems hparse
    -- the parameters of every tag have a place in the text of the source, which is a known one
    have hcollects (hknown : r.2.sources ⊆ known) := by
      refine hderives.collects (fun hnested => ih hnested) ?_
      intro item hitem
      cases item with
      | text => exact trivial
      | tag t row =>
        intro parameters hparameters ts last hscan e he
        obtain ⟨front, hin, hrow⟩ := parameters_place hitems hderives.scanned hitem hparameters
        have hsource : source ∈ known := hknown (hsources (by simp))
        exact hP source hsource content hcontent e
          ⟨front, parameters, ts, hin, tokensOf_scanTokens hscan hrow, he⟩
    refine ⟨List.Subset.trans (List.subset_append_left _ _) hsources, fun hknown => ?_,
      fun hknown hholds => (hcollects hknown).functions hknown hholds⟩
    rw [hr, exprs_ofList]
    exact (hcollects hknown).exprs hknown

end

end Stencil
