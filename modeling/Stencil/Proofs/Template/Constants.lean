import Mathlib
import Stencil.Proofs.Expr.Separation
import Stencil.Proofs.Template.Locations

/-!
# The constants of a template

The constants of an expression are the values of the tokens that spell it, and what signs make of
them. A token has a value of its own only if it is a number. So no constant of a template that has
been compiled is a map, or any other reference into a heap.

Main statements: `scanLexeme_isNumber`, `Spells.literal`, `compile_literal`.
-/

namespace Stencil

/-! ### Numbers -/

section Numbers

variable {digits cs : List Char} {v : Value}

/-- Digits of an int that have a value have a number as their value. -/
theorem intOfDigits_isNumber (h : intOfDigits digits = .ok v) : v.isNumber = true := by
  obtain ⟨n, -, hn⟩ := bind_eq_ok_iff.mp h
  split at hn
  · exact Except.ok.inj hn ▸ rfl
  · cases hn

/-- Digits of a long that have a value have a number as their value. -/
theorem longOfDigits_isNumber (h : longOfDigits digits = .ok v) : v.isNumber = true := by
  obtain ⟨n, -, hn⟩ := bind_eq_ok_iff.mp h
  split at hn
  · exact Except.ok.inj hn ▸ rfl
  · cases hn

/-- Hex digits that have a value have a number as their value. -/
theorem ofHexDigits_isNumber {long : Bool} (h : ofHexDigits long digits = .ok v) :
    v.isNumber = true := by
  unfold ofHexDigits at h
  dsimp only at h
  split at h
  · cases h
  · split at h
    · exact Except.ok.inj h ▸ rfl
    · split at h
      · exact Except.ok.inj h ▸ rfl
      · cases h

/-- A decimal literal that has a value has a number as its value. -/
theorem DecimalLiteral.value_isNumber {n : DecimalLiteral} {suffix : Option Char}
    (h : n.value suffix = .ok v) : v.isNumber = true := by
  unfold DecimalLiteral.value at h
  split at h
  -- the suffixes of a long, upper and lower case
  · split at h
    · cases h
    · split at h
      · cases h
      · exact longOfDigits_isNumber h
  · split at h
    · cases h
    · split at h
      · cases h
      · exact longOfDigits_isNumber h
  -- those of a float
  · split at h
    · cases h
    · exact Except.ok.inj h ▸ rfl
  · split at h
    · cases h
    · exact Except.ok.inj h ▸ rfl
  -- any other suffix, and none
  · exact Except.ok.inj h ▸ rfl
  · split at h
    · exact Except.ok.inj h ▸ rfl
    · exact intOfDigits_isNumber h

variable {literal rest : List Char}

/-- What is scanned as a decimal literal is a number. -/
theorem scanDecimal_isNumber (h : scanDecimal cs = .ok (literal, v, rest)) : v.isNumber = true := by
  unfold scanDecimal at h
  dsimp only at h
  split at h
  · cases h
  · split at h
    · rename_i hvalue
      obtain ⟨-, rfl, -⟩ := Except.ok.inj h
      exact DecimalLiteral.value_isNumber hvalue
    · cases h

/-- What is scanned as a hex literal is a number. -/
theorem scanHex_isNumber {mark : List Char} (h : scanHex mark cs = .ok (literal, v, rest)) :
    v.isNumber = true := by
  unfold scanHex at h
  dsimp only at h
  split at h
  · cases h
  · split at h
    · cases h
    · split at h
      · rename_i hvalue
        obtain ⟨-, rfl, -⟩ := Except.ok.inj h
        exact ofHexDigits_isNumber hvalue
      · cases h

/-- **What is scanned as a number is a number.** -/
theorem scanLexeme_isNumber {c : Char} {spelling : String} {rows : Nat}
    (h : scanLexeme c cs = .ok (.number spelling v, rest, rows)) : v.isNumber = true := by
  unfold scanLexeme at h
  split at h
  -- a word, a number, a text, a mark: only the second is scanned as a number
  · obtain ⟨hword, -⟩ := Prod.mk.inj (Except.ok.inj h)
    unfold Lexeme.ofWord at hword
    split_ifs at hword
  · split at h
    · split at h
      · cases h
      · rename_i hnumber
        cases h
        unfold scanNumber at hnumber
        -- a number is a hex literal behind `0x`, and a decimal one else
        split at hnumber
        · split at hnumber
          · exact scanHex_isNumber hnumber
          · exact scanDecimal_isNumber hnumber
        · exact scanDecimal_isNumber hnumber
    · split at h
      · split at h
        · cases h
        · cases h
      · split at h
        · cases h
        · cases h

end Numbers

/-! ### Expressions -/

variable {file : Option String} {ts : List Token}

/-- If a token is a number, then its value is no map. -/
def Lexeme.Literal (lexeme : Lexeme) : Prop := ∀ spelling v, lexeme = .number spelling v → v.NoMap

/-- The constants in a phrase. -/
def Phrase.consts : Phrase → List Value
  | .expr _ e => e.consts
  | .items es | .arguments es => Expr.allConsts es
  | .entries _ values => Expr.allConsts values

/-- A sign in front brings no map among the constants. -/
theorem Expr.literal_ofSign {e : Expr} (h : e.Literal) (s : Sign) (location : Location) :
    (Expr.ofSign s e location).Literal := by
  unfold Expr.ofSign
  split
  · split
    · rename_i hfold
      exact List.forall_mem_singleton.mpr (Value.signed_noMap (Sign.fold?_eq_some_iff.1 hfold))
    · exact h
  · exact h

/-- The constants of an expression made by an operator are those of its operands. -/
theorem Expr.consts_build (op : Parse.BinaryOp) (left right : Expr) (location : Location) :
    (op.build left right location).consts = left.consts ++ right.consts := by
  cases op <;> rfl

/-- **The constants of an expression come from its tokens.** -/
theorem Spells.literal {phrase : Phrase} (h : Spells file phrase ts)
    (hts : ∀ t ∈ ts, t.lexeme.Literal) : ∀ v ∈ phrase.consts, v.NoMap := by
  induction h with
  | loosen _ ih => exact ih hts
  -- the constants that are tokens themselves
  | number spelling v r =>
    exact List.forall_mem_singleton.mpr (hts _ (List.mem_singleton_self _) spelling v rfl)
  | text content r => exact List.forall_mem_singleton.mpr (Value.noMap_str content)
  | keyword k r =>
    refine List.forall_mem_singleton.mpr ?_
    cases k with
    | true | false => exact Value.noMap_bool _
    | null => exact Value.noMap_null
  -- the forms that have no constant
  | var | emptyMap | emptyList | noItems | noArguments | staticField | stepAfter | stepBefore =>
    exact List.forall_mem_nil _
  -- the forms that have the constants of one part, of two or of three
  | group _ _ _ ih | map _ _ _ ih | not _ _ ih | quiet _ _ ih | field _ _ _ _ ih
  | assign _ _ _ _ ih | call _ _ _ ih | staticCall _ _ _ _ _ ih =>
    exact ih fun t ht => hts t (by simp [ht])
  | list _ _ _ _ ih ih' | arguments _ _ _ _ ih ih' | moreItems _ _ _ ih ih'
  | moreEntries _ _ _ _ _ _ ih ih' | coalesce _ _ _ _ ih ih' | range _ _ _ _ _ ih ih'
  | index _ _ _ _ ih ih' | assignAt _ _ _ _ _ _ _ ih ih' | method _ _ _ _ _ ih ih' =>
    exact List.forall_mem_append.mpr
      ⟨ih fun t ht => hts t (by simp [ht]), ih' fun t ht => hts t (by simp [ht])⟩
  | sign _ _ _ ih =>
    exact Expr.literal_ofSign (ih fun t ht => hts t (List.mem_cons_of_mem _ ht)) _ _
  | binary _ _ _ _ ih ih' =>
    change ∀ v ∈ (Parse.BinaryOp.build _ _ _ _).consts, v.NoMap
    rw [Expr.consts_build]
    exact List.forall_mem_append.mpr
      ⟨ih fun t ht => hts t (by simp [ht]), ih' fun t ht => hts t (by simp [ht])⟩
  | ternary _ _ _ _ _ ih ih' ih'' =>
    exact List.forall_mem_append.mpr ⟨List.forall_mem_append.mpr
      ⟨ih fun t ht => hts t (by simp [ht]), ih' fun t ht => hts t (by simp [ht])⟩,
      ih'' fun t ht => hts t (by simp [ht])⟩
  | entry _ _ _ _ ih =>
    rw [Phrase.consts, Expr.allConsts, Expr.allConsts, List.append_nil]
    exact ih fun t ht => hts t (by simp [ht])

/-- An expression that stands in a text has no map among its constants. -/
theorem Expr.StandsIn.literal {text : List Char} {e : Expr} (h : e.StandsIn text file) :
    e.Literal := by
  obtain ⟨front, parameters, ts, -, htokens, us, hus, hspells⟩ := h
  refine hspells.literal fun t ht spelling v hnumber => ?_
  obtain ⟨before, c, cs, rest, rows, -, hlexeme, -⟩ := htokens.exists_of_mem (hus.subset ht)
  rw [hnumber] at hlexeme
  exact Value.noMap_of_isNumber (scanLexeme_isNumber hlexeme)

/-- **No constant of a template is a map.** -/
theorem compile_literal {config : Config} {files : Files} {source : Source} {first next : Nat}
    {unit : Compiled} (h : compile config files source first = .ok (unit, next)) :
    ∀ e ∈ unit.exprs, e.Literal := by
  obtain ⟨⟨body, draft⟩, hparse, hunit⟩ := bind_eq_ok_iff.mp h
  obtain ⟨rfl, -⟩ := Prod.mk.inj (Except.ok.inj hunit)
  have hcollects := parseFile_collects (P := Expr.Literal)
    (fun s (_ : s ∈ draft.sources) _ _ _ he => he.literal) hparse
  have hfunctions := hcollects.functions (List.Subset.refl _) (List.forall_mem_nil _)
  exact List.forall_mem_append.mpr
    ⟨hcollects.exprs (List.Subset.refl _), List.forall_mem_flatMap.mpr hfunctions⟩

end Stencil
