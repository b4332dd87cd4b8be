import Stencil.Proofs.Template.Blocks
import Stencil.Proofs.Template.Parameters

/-!
# The names of custom directives

A name is checked when a directive is registered under it, spelled by the scanner of tags, and
looked up by the parser of templates. The three agree on what a name is.

* A name that may be registered is a word that begins like a tag and goes on with the characters of
  tags (`isDirectiveName_iff`), and none of the words of the language. So it is scanned as a tag of
  its own, whatever its parameters are (`tagReads_of_isDirectiveName`), and it is neither a divider
  nor a directive of the language (`Parsing.foreign_of_not_reserved`).
* A tag that is spelled in a text has a word of the language for its name, or one that may be
  registered (`TagReads.reserved_or_isDirectiveName`).

Main statement: `registrable_iff_reachable`.
-/

namespace Stencil

variable {name : String}

/-! ### Names -/

/-- The name of a directive begins like a tag and goes on with the characters of tags. -/
theorem isDirectiveName_iff :
    isDirectiveName name = true ↔
      ∃ c word, name = String.ofList (c :: word) ∧ isTagStart c = true ∧ AllTagChars word := by
  unfold isDirectiveName
  constructor
  · intro h
    split at h
    · cases h
    · rename_i c word hname
      obtain ⟨hstart, hword⟩ := Bool.and_eq_true_iff.1 h
      refine ⟨c, word, ?_, hstart, List.all_eq_true.1 hword⟩
      rw [← hname, String.ofList_toList]
  · rintro ⟨c, word, rfl, hstart, hword⟩
    rw [String.toList_ofList]
    exact Bool.and_eq_true_iff.2 ⟨hstart, List.all_eq_true.2 hword⟩

/-- The words that stand without parameters are reserved. -/
theorem mem_reservedWords_of_mem_plainWords (h : name ∈ plainWords) : name ∈ reservedWords := by
  have hall : ∀ word ∈ plainWords, word ∈ reservedWords := by decide
  exact hall name h

/-- A name that is no word of the language is spelled behind a `#` with any parameters. -/
theorem tagReads_of_isDirectiveName (hname : isDirectiveName name = true)
    (hreserved : name ∉ reservedWords) {parameters : String} (hb : Balanced parameters.toList)
    (rest : List Char) :
    TagReads (name.toList ++ '(' :: (parameters.toList ++ ')' :: rest))
      (.directive name (some parameters)) rest := by
  obtain ⟨c, word, rfl, hstart, hword⟩ := isDirectiveName_iff.1 hname
  -- the rules for plain words, for `#define` and for `#call?` do not apply to the name
  have hplain : String.ofList (c :: word) ∉ plainWords := fun h =>
    hreserved (mem_reservedWords_of_mem_plainWords h)
  have hdefine : String.ofList (c :: word) ≠ "define" := by
    intro h
    rw [h] at hreserved
    exact hreserved (by decide)
  have hbehind : Arguments ('(' :: (parameters.toList ++ ')' :: rest)) parameters.toList rest :=
    Arguments.mk (show AllSpaces [] by simp [AllSpaces]) hb
  have hmark : ∀ d ∈ (none : Option Char), String.ofList (c :: word) = "call" ∧ d = '?' := nofun
  have htag := TagReads.named hstart hword hplain hdefine hmark hbehind
  rw [Option.toList_none, String.ofList_nil, String.append_empty, String.ofList_toList] at htag
  rw [String.toList_ofList]
  exact htag

/-- The name of a tag is a word of the language, or it may be the name of a custom directive. -/
theorem TagReads.reserved_or_isDirectiveName {cs rest : List Char} {parameters : Option String}
    (h : TagReads cs (.directive name parameters) rest) :
    name ∈ reservedWords ∨ isDirectiveName name = true := by
  cases h with
  | output => exact .inl (by decide)
  | plain hplain => exact .inl (mem_reservedWords_of_mem_plainWords hplain)
  | @named c word _ _ _ mark hstart hword _ _ hmark =>
    cases mark with
    | none =>
      refine .inr (isDirectiveName_iff.2 ⟨c, word, ?_, hstart, hword⟩)
      exact String.append_empty
    | some d =>
      -- Only `call` may have a mark behind it.
      obtain ⟨hcall, rfl⟩ := hmark d rfl
      rw [hcall]
      exact .inl (by decide)

/-! ### Registration -/

namespace Config

variable {config after : Config} {directive : Directive}

/-- A directive is registered exactly if its name is spelled like a tag, not reserved and not taken.
-/
theorem addDirective_eq_ok_iff :
    config.addDirective name directive = .ok after ↔
      name ∉ reservedWords ∧ config.directives.contains name = false ∧
        isDirectiveName name = true ∧
        after = { config with directives := config.directives.insert name directive } := by
  unfold addDirective
  by_cases hreserved : name ∈ reservedWords
  · simp [hreserved]
  · cases config.directives.contains name <;> cases isDirectiveName name <;>
      simp [hreserved, eq_comm]

/-- A name is refused as invalid if it is neither taken nor a name that may be registered. -/
theorem addDirective_eq_invalid_iff :
    config.addDirective name directive = .error (.invalidDirectiveName name) ↔
      name ∉ reservedWords ∧ config.directives.contains name = false ∧
        isDirectiveName name = false := by
  unfold addDirective
  by_cases hreserved : name ∈ reservedWords
  · simp [hreserved]
  · cases config.directives.contains name <;> cases isDirectiveName name <;> simp [hreserved]

end Config

/-! ### Dispatch -/

namespace Parsing

variable {p : Parsing} {b : Blocks} {draft : Draft} {row : Nat} {directive : Directive}

/-- What is no word of the language is neither a divider nor a directive of the language. -/
theorem foreign_of_not_reserved (h : name ∉ reservedWords) (parameters : Option String) :
    Foreign name parameters := by
  have hbuiltIn : ∀ word ∈ builtInIds, word ∈ reservedWords := by decide
  refine ⟨?_, fun hid => h (hbuiltIn name hid)⟩
  unfold Divider.ofTag?
  split
  all_goals first
    | rfl
    | rename_i heq
      cases heq
      exact absurd (by decide) h

/-- A tag of a registered directive is handed to this directive. -/
theorem add_registered (hname : name ∉ reservedWords)
    (hfound : p.config.directives.get? name = some directive) (parameters : String) :
    p.add b draft (.tag (.directive name (some parameters)) row) =
      if b.awaitsCase then p.notInSwitch row
      else do
        let args ← p.exprs row parameters
        return (if directive.hasBody then b.openBlock (.custom row name directive args)
          else b.append (.custom directive args .nothing ⟨p.file, row⟩), draft) := by
  obtain ⟨hdivider, hforeign⟩ := foreign_of_not_reserved hname (some parameters)
  cases hcase : b.awaitsCase with
  -- where a case is due, no tag goes well
  | true =>
    change p.addTag b draft _ row = _
    rw [addTag, hdivider, hcase]
    rfl
  -- elsewhere the directive is found under its name
  | false =>
    rw [add_directive hcase hdivider, directive_foreign hforeign, customDirective, hfound]
    dsimp only [Option.getD_some]
    cases p.exprs row parameters with
    | error error => rfl
    | ok args => cases directive.hasBody <;> rfl

/-- A template of nothing but the tag is the statement of its directive, or lacks its `#end`. -/
theorem parseItems_registered (hname : name ∉ reservedWords)
    (hfound : p.config.directives.get? name = some directive) (parameters : String) :
    p.parseItems draft [.tag (.directive name (some parameters)) row] = do
      let args ← p.exprs row parameters
      if directive.hasBody then p.errorAt row (.unexpectedEnd "#end")
      else return (.custom directive args .nothing ⟨p.file, row⟩, draft) := by
  unfold parseItems addAll
  rw [add_registered hname hfound]
  cases p.exprs row parameters with
  | error error => rfl
  | ok args => cases directive.hasBody <;> rfl

/-- `p.Dispatches name parameters directive`: the tag `#name(parameters)` is handed to the directive,
with the expressions in the parameters for its arguments. -/
structure Dispatches (p : Parsing) (name parameters : String) (directive : Directive) : Prop where
  /-- Wherever a statement may stand, the tag is that of the directive, or opens its body. -/
  add (b : Blocks) (draft : Draft) (row : Nat) :
    p.add b draft (.tag (.directive name (some parameters)) row) =
      if b.awaitsCase then p.notInSwitch row
      else do
        let args ← p.exprs row parameters
        return (if directive.hasBody then b.openBlock (.custom row name directive args)
          else b.append (.custom directive args .nothing ⟨p.file, row⟩), draft)
  /-- On its own the tag is a whole template, unless the directive has a body. -/
  parseItems (draft : Draft) (row : Nat) :
    p.parseItems draft [.tag (.directive name (some parameters)) row] = do
      let args ← p.exprs row parameters
      if directive.hasBody then p.errorAt row (.unexpectedEnd "#end")
      else return (.custom directive args .nothing ⟨p.file, row⟩, draft)

end Parsing

/-! ### Registered names -/

/-- **The names that may be registered are those that templates can spell.** Once a directive is
registered under a name, `#name(parameters)` is one token for all parameters whose parentheses
balance and whose strings are closed, and this token is handed to the directive. A name that is
refused as invalid is the name of no token of any template. -/
theorem registrable_iff_reachable (config : Config) (name : String) (directive : Directive) :
    (∀ after, config.addDirective name directive = .ok after →
      after.directives.get? name = some directive ∧
      ∀ parameters : String, Balanced parameters.toList →
        (∀ keep, itemsOf keep ("#" ++ name ++ "(" ++ parameters ++ ")").toList =
          .ok [.tag (.directive name (some parameters)) 1]) ∧
        ∀ p : Parsing, p.config.directives.get? name = some directive →
          p.Dispatches name parameters directive) ∧
    (config.addDirective name directive = .error (.invalidDirectiveName name) →
      ∀ keep text items, itemsOf keep text = .ok items →
        ∀ parameters row, .tag (.directive name parameters) row ∉ items) := by
  constructor
  · intro after hafter
    -- a registered name is found again, and its tag is read as one token and handed to it
    obtain ⟨hreserved, -, hname, rfl⟩ := Config.addDirective_eq_ok_iff.1 hafter
    refine ⟨by simp [Assoc.get?_insert], fun parameters hb => ⟨fun keep => ?_, fun p hfound => ?_⟩⟩
    · have htext : ("#" ++ name ++ "(" ++ parameters ++ ")").toList =
          '#' :: (name.toList ++ '(' :: (parameters.toList ++ ')' :: [])) := by
        simp [String.toList_append]
      rw [htext]
      exact itemsOf_tag (tagReads_of_isDirectiveName hname hreserved hb []) keep
    · exact ⟨fun _ _ _ => Parsing.add_registered hreserved hfound parameters,
        fun _ _ => Parsing.parseItems_registered hreserved hfound parameters⟩
  -- a tag of the text comes from a construct in it, whose word is a word of the language or a name
  · intro hinvalid keep text items hitems parameters row hmem
    obtain ⟨hreserved, -, hname⟩ := Config.addDirective_eq_invalid_iff.1 hinvalid
    obtain ⟨regions, hreads, hregion⟩ := exists_reads_of_mem_itemsOf hitems hmem
    obtain ⟨cs, rest, htag⟩ := hreads.exists_tagReads hregion
    rcases htag.reserved_or_isDirectiveName with h | h
    · exact hreserved h
    · rw [hname] at h
      cases h

/-- A name may end in `$` but not begin with a digit. -/
theorem registrable_iff_reachable_up :
    (∃ after, ({} : Config).addDirective "up_1$" .escape = .ok after ∧
      after.directives.get? "up_1$" = some .escape ∧
      (∀ keep, itemsOf keep "#up_1$(('('))".toList =
        .ok [.tag (.directive "up_1$" (some "('(')")) 1]) ∧
      ∀ files file opened nested,
        Parsing.Dispatches ⟨after, files, file, opened, nested⟩ "up_1$" "('(')" .escape) ∧
    ∀ keep text items, itemsOf keep text = .ok items →
      ∀ parameters row, .tag (.directive "1st" parameters) row ∉ items := by
  constructor
  · obtain ⟨after, hadded⟩ : ∃ after, ({} : Config).addDirective "up_1$" .escape = .ok after :=
      ⟨_, Config.addDirective_eq_ok_iff.2 ⟨by decide, by decide, by decide, rfl⟩⟩
    have hliteral : Literal '\x27' ['('] := .plain (by decide) (by decide) .nil
    have hstring : Balanced ('\x27' :: (['('] ++ '\x27' :: [])) := .string (.inr rfl) hliteral .nil
    have hbalanced : Balanced ('(' :: ("'('".toList ++ ')' :: [])) := .group hstring .nil
    obtain ⟨hfound, hreached⟩ := (registrable_iff_reachable {} "up_1$" .escape).1 _ hadded
    obtain ⟨hitems, hdispatches⟩ := hreached "('(')" hbalanced
    exact ⟨after, hadded, hfound, hitems, fun files file opened nested => hdispatches _ hfound⟩
  · exact (registrable_iff_reachable {} "1st" .escape).2
      (Config.addDirective_eq_invalid_iff.2 ⟨by decide, by decide, by decide⟩)

end Stencil
