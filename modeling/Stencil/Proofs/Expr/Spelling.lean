import Stencil.Proofs.Expr.Printing
import Stencil.Proofs.Expr.Reading

/-!
# Printed tokens spell the expression

A printed expression is a list of lexemes, and the grammar speaks of tokens, which stand in rows.
`Expr.SpelledBy` bridges the two: lexemes spell an expression at a level if tokens with these
lexemes do, in any rows, up to the locations that the rows make.

Main statement: `Expr.print_spelled`, by induction on the expression. Each form has its statement
about `SpelledBy` in front, which takes the tokens apart as the form was put together.
-/

namespace Stencil

open Parse

/-! ### Taking tokens apart -/

/-- Tokens with a first lexeme begin with a token of this lexeme. -/
theorem exists_of_map_cons {ts : List Token} {lexeme : Lexeme} {lexemes : List Lexeme}
    (h : ts.map Token.lexeme = lexeme :: lexemes) :
    ∃ r us, ts = ⟨lexeme, r⟩ :: us ∧ us.map Token.lexeme = lexemes := by
  obtain ⟨⟨lexeme', r⟩, us, rfl, hlexeme, hus⟩ := List.map_eq_cons_iff.1 h
  obtain rfl : lexeme' = lexeme := hlexeme
  exact ⟨r, us, rfl, hus⟩

/-- Tokens with one lexeme are one token. -/
theorem exists_of_map_singleton {ts : List Token} {lexeme : Lexeme}
    (h : ts.map Token.lexeme = [lexeme]) : ∃ r, ts = [⟨lexeme, r⟩] := by
  obtain ⟨r, us, rfl, hus⟩ := exists_of_map_cons h
  obtain rfl := List.map_eq_nil_iff.1 hus
  exact ⟨r, rfl⟩

/-! ### Lexemes that spell -/

/-- Tokens with these lexemes spell an expression at a level, up to its locations. -/
def Expr.SpelledBy (e : Expr) (level : Level) (lexemes : List Lexeme) : Prop :=
  ∀ (file : Option String) (ts : List Token), ts.map Token.lexeme = lexemes →
    ∃ e', e'.unlocated = e.unlocated ∧ Spells file (.expr level e') ts

/-- Tokens with these lexemes spell items, up to their locations. -/
def ItemsSpelledBy (es : List Expr) (lexemes : List Lexeme) : Prop :=
  ∀ (file : Option String) (ts : List Token), ts.map Token.lexeme = lexemes →
    ∃ es', unlocatedAll es' = unlocatedAll es ∧ Spells file (.items es') ts

/-- Tokens with these lexemes spell arguments, up to their locations. -/
def ArgumentsSpelledBy (es : List Expr) (lexemes : List Lexeme) : Prop :=
  ∀ (file : Option String) (ts : List Token), ts.map Token.lexeme = lexemes →
    ∃ es', unlocatedAll es' = unlocatedAll es ∧ Spells file (.arguments es') ts

/-- Tokens with these lexemes spell the entries of a map, up to their locations. -/
def EntriesSpelledBy (keys : List String) (values : List Expr) (lexemes : List Lexeme) : Prop :=
  ∀ (file : Option String) (ts : List Token), ts.map Token.lexeme = lexemes →
    ∃ values', unlocatedAll values' = unlocatedAll values ∧
      Spells file (.entries keys values') ts

variable {e : Expr} {level : Level} {lexemes : List Lexeme}

/-! ### Levels and parentheses -/

/-- The levels that places have: a binary operator's, or that of the operands of them all. -/
def Level.Proper : Level → Prop
  | binary level => level ≤ levels
  | _ => True

/-- The next tighter level is a proper one, and has the next place. -/
theorem Level.rank_tighter {level : Level} (hp : level.Proper) (h : level ≠ .primary) :
    level.tighter.Proper ∧ level.tighter.rank = level.rank + 1 := by
  cases level with
  -- behind the last level of operators comes the level of `??`
  | binary level =>
    rw [tighter]
    simp only [Proper] at hp
    split
    · simp only [Proper, rank, levels] at *
      omega
    · refine ⟨trivial, ?_⟩
      simp only [rank, levels] at *
      omega
  | ternary => exact ⟨Nat.zero_le _, rfl⟩
  | primary => exact absurd rfl h
  | _ => exact ⟨trivial, rfl⟩

theorem Level.eq_of_rank_eq {level level' : Level} (hp : level.Proper) (hp' : level'.Proper)
    (h : level.rank = level'.rank) : level = level' := by
  cases level <;> cases level' <;> simp_all [rank, Proper, levels] <;> omega

/-- What spells an expression at a level spells it at every looser one. -/
theorem Spells.loosen_to {file : Option String} {ts : List Token} {level' : Level}
    (hp : level.Proper) (hp' : level'.Proper) (h : Spells file (.expr level e) ts)
    (hr : level'.rank ≤ level.rank) : Spells file (.expr level' e) ts := by
  -- By induction on the number of levels in between.
  obtain ⟨d, hd⟩ := Nat.exists_eq_add_of_le hr
  induction d generalizing level' with
  | zero => rwa [Level.eq_of_rank_eq hp' hp (by omega)]
  | succ d ih =>
    have hne : level' ≠ .primary := by
      rintro rfl
      have : level.rank ≤ 13 := by
        cases level <;> simp only [Level.rank, levels] <;> omega
      simp only [Level.rank] at hd this
      omega
    obtain ⟨htp, htr⟩ := Level.rank_tighter hp' hne
    exact .loosen (ih htp (by omega) (by omega))

/-- A text with the tokens of an expression at some level is parsed as this expression. -/
theorem parseExprs_of_spells_at {file : Option String} {row last : Nat} {text : String}
    {ts : List Token} (hp : level.Proper) (hscan : scanTokens row text.toList = .ok (ts, last))
    (h : Spells file (.expr level e) ts) : parseExprs file row text = .ok [e] := by
  have hwhole : Spells file (.expr .assignment e) ts := h.loosen_to hp trivial (Nat.zero_le _)
  rw [← List.append_nil ts] at hscan
  exact parseExprs_of_spells hscan hwhole .noItems

/-- What is spelled at a level is spelled at every looser one. -/
theorem Expr.SpelledBy.loosen_to {level' : Level} (h : e.SpelledBy level lexemes)
    (hp : level.Proper) (hp' : level'.Proper) (hr : level'.rank ≤ level.rank) :
    e.SpelledBy level' lexemes := by
  intro file ts hts
  obtain ⟨e', he, hs⟩ := h file ts hts
  exact ⟨e', he, hs.loosen_to hp hp' hr⟩

/-- In parentheses it is spelled at the tightest level. -/
theorem Expr.SpelledBy.inParens (h : e.SpelledBy .assignment lexemes) :
    e.SpelledBy .primary (inParens lexemes) := by
  intro file ts hts
  obtain ⟨r, us, rfl, hus⟩ := exists_of_map_cons hts
  obtain ⟨us, vs, rfl, hinner, hclose⟩ := List.map_eq_append_iff.1 hus
  obtain ⟨r', rfl⟩ := exists_of_map_singleton hclose
  obtain ⟨e', he, hs⟩ := h file us hinner
  exact ⟨e', he, .group r r' hs⟩

/-- The level of an integer is a proper one. -/
theorem integerLevel_proper (smallest i : Int) : (integerLevel smallest i).Proper := by
  rw [integerLevel]
  split <;> trivial

/-- So is the level of every expression. -/
theorem Expr.level_proper (e : Expr) : e.level.Proper := by
  cases e with
  | const v =>
    cases v with
    | int | long => exact integerLevel_proper ..
    | _ => trivial
  | step step early => cases early <;> trivial
  | or | and | compare | arith => exact Nat.le_of_lt (BinaryOp.level_lt _)
  | _ => trivial

/-- An operand in its place. -/
theorem Expr.SpelledBy.enclose (extra : Expr → Bool) (h : e.SpelledBy e.level lexemes)
    (level : Level) (hp : level.Proper) : e.SpelledBy level (e.enclose extra level lexemes) := by
  rw [Expr.enclose]
  split
  · have hinner : e.SpelledBy .assignment lexemes :=
      h.loosen_to e.level_proper trivial (Nat.zero_le _)
    refine hinner.inParens.loosen_to trivial hp ?_
    cases level <;> simp only [Level.rank, Level.Proper, levels] at * <;> omega
  · rename_i hno
    rw [Bool.not_eq_true, Bool.or_eq_false_iff, decide_eq_false_iff_not] at hno
    exact h.loosen_to e.level_proper hp (Nat.le_of_not_lt hno.1)

/-! ### Constants -/

/-- One token that spells an expression. -/
theorem spelledBy_token {lexeme : Lexeme} (h : ∀ file r, Spells file (.expr level e) [⟨lexeme, r⟩]) :
    e.SpelledBy level [lexeme] := by
  intro file ts hts
  obtain ⟨r, rfl⟩ := exists_of_map_singleton hts
  exact ⟨e, rfl, h file r⟩

/-- A minus and the token of a constant spell the constant negated, for the sign is folded. -/
theorem spelledBy_negative {lexeme : Lexeme} {v w : Value} (hw : w.signed .minus = .ok v)
    (h : ∀ file r, Spells file (.expr .primary (.const w)) [⟨lexeme, r⟩]) :
    (Expr.const v).SpelledBy .unary [.punct .minus, lexeme] := by
  intro file ts hts
  obtain ⟨r, us, rfl, hus⟩ := exists_of_map_cons hts
  obtain ⟨r', rfl⟩ := exists_of_map_singleton hus
  have hoperand : Spells file (.expr .unary (.const w)) [⟨lexeme, r'⟩] :=
    (h file r').loosen_to (show Level.Proper .primary from trivial) trivial (by decide)
  have hsign : Spells file _ (⟨.punct .minus, r⟩ :: [⟨lexeme, r'⟩]) := .sign r rfl hoperand
  -- the folded sign leaves no operator behind
  have hfold : Expr.ofSign .minus (.const w) ⟨file, r⟩ = .const v := by
    simp [Expr.ofSign, Sign.fold?_eq_some_iff.2 hw]
  rw [hfold] at hsign
  exact ⟨_, rfl, hsign⟩

/-- The decimal literal of a magnitude spells an integer with the sign in front, and the bits of
the smallest integer spell that one. -/
theorem spelledBy_integer {smallest : Int} {bits : Lexeme} {decimal : Nat → Lexeme} {v : Value}
    {i : Int} (hbits : i = smallest → ∀ file r, Spells file (.expr .primary (.const v)) [⟨bits, r⟩])
    (hnegative : i < 0 → i ≠ smallest → (Expr.const v).SpelledBy .unary
      [.punct .minus, decimal i.natAbs])
    (hpositive : 0 ≤ i → ∀ file r,
      Spells file (.expr .primary (.const v)) [⟨decimal i.natAbs, r⟩]) :
    (Expr.const v).SpelledBy (integerLevel smallest i) (integerLexemes smallest bits decimal i) := by
  rw [integerLevel, integerLexemes]
  by_cases hs : i = smallest
  · simp only [hs, ne_eq, not_true, and_false, if_false, if_true]
    exact spelledBy_token (hbits hs)
  · by_cases hn : i < 0
    · simp only [hs, hn, ne_eq, not_false_iff, and_true, if_true, if_false]
      exact hnegative hn hs
    · simp only [hs, hn, false_and, if_false]
      exact spelledBy_token (hpositive (Int.not_lt.1 hn))

/-- A constant that has a literal is spelled by it. -/
theorem Value.spelledBy {v : Value} (h : v.hasLiteral = true) :
    (Expr.const v).SpelledBy (Expr.const v).level v.lexemes := by
  cases v with
  | null => exact spelledBy_token fun file r => .keyword .null r
  | bool b =>
    cases b with
    | false => exact spelledBy_token fun file r => .keyword .false r
    | true => exact spelledBy_token fun file r => .keyword .true r
  -- the smallest int is spelled by its bits, and every other one by its magnitude
  | int i =>
    refine spelledBy_integer ?_ ?_ ?_
    · intro hs file r
      obtain rfl := Int32.toInt_inj.1 hs
      exact .number _ _ r
    · intro hn _
      have hi : -Int32.ofNat i.toInt.natAbs = i := by
        rw [Int32.neg_ofNat, show -(i.toInt.natAbs : Int) = i.toInt by omega, Int32.ofInt_toInt]
      exact spelledBy_negative (by rw [Value.signed, hi]) fun file r => .number _ _ r
    · intro hp file r
      have hi : Int32.ofNat i.toInt.natAbs = i := by
        rw [← Int32.ofInt_eq_ofNat, Int.natAbs_of_nonneg hp, Int32.ofInt_toInt]
      rw [intLiteral, hi]
      exact .number _ _ r
  | long l =>
    refine spelledBy_integer ?_ ?_ ?_
    · intro hs file r
      obtain rfl := Int64.toInt_inj.1 hs
      exact .number _ _ r
    · intro hn _
      have hl : -Int64.ofNat l.toInt.natAbs = l := by
        rw [Int64.neg_ofNat, show -(l.toInt.natAbs : Int) = l.toInt by omega, Int64.ofInt_toInt]
      exact spelledBy_negative (by rw [Value.signed, hl]) fun file r => .number _ _ r
    · intro hp file r
      have hl : Int64.ofNat l.toInt.natAbs = l := by
        rw [← Int64.ofInt_eq_ofNat, Int.natAbs_of_nonneg hp, Int64.ofInt_toInt]
      rw [longLiteral, hl]
      exact .number _ _ r
  | str s => exact spelledBy_token fun file r => .text s r
  | _ => simp [Value.hasLiteral] at h

/-! ### Assignments and the ternary operator -/

/-- An assignment to a variable. -/
theorem spelledBy_assign {value : Expr} (x : String) (location : Location)
    (hv : value.SpelledBy .assignment lexemes) :
    (Expr.assign x value location).SpelledBy .assignment
      (.name x :: .punct .assign :: lexemes) := by
  intro file ts hts
  obtain ⟨r, us, rfl, hus⟩ := exists_of_map_cons hts
  obtain ⟨r', vs, rfl, hvs⟩ := exists_of_map_cons hus
  obtain ⟨value', heq, hs⟩ := hv file vs hvs
  exact ⟨_, by simp only [Expr.unlocated, heq], .assign x r r' hs⟩

variable {lexemes' lexemes'' : List Lexeme}

/-- An assignment to a key. -/
theorem spelledBy_assignAt {key value : Expr} (x : String) (location : Location)
    (hk : key.SpelledBy .assignment lexemes) (hv : value.SpelledBy .assignment lexemes') :
    (Expr.assignAt x key value location).SpelledBy .assignment
      (.name x :: .punct .lbracket ::
        (lexemes ++ .punct .rbracket :: .punct .assign :: lexemes')) := by
  intro file ts hts
  obtain ⟨r, ts₁, rfl, hts₁⟩ := exists_of_map_cons hts
  obtain ⟨r₁, ts₂, rfl, hts₂⟩ := exists_of_map_cons hts₁
  obtain ⟨us, ts₃, rfl, hus, hts₃⟩ := List.map_eq_append_iff.1 hts₂
  obtain ⟨r₂, ts₄, rfl, hts₄⟩ := exists_of_map_cons hts₃
  obtain ⟨r₃, vs, rfl, hvs⟩ := exists_of_map_cons hts₄
  obtain ⟨key', hkey, hks⟩ := hk file us hus
  obtain ⟨value', hvalue, hvs⟩ := hv file vs hvs
  exact ⟨_, by simp only [Expr.unlocated, hkey, hvalue], .assignAt x r r₁ r₂ r₃ hks hvs⟩

/-- A ternary operator. -/
theorem spelledBy_ternary {test yes no : Expr} (ht : test.SpelledBy (.binary 0) lexemes)
    (hy : yes.SpelledBy .assignment lexemes') (hn : no.SpelledBy .assignment lexemes'') :
    (Expr.ternary test yes no).SpelledBy .ternary
      (lexemes ++ .punct .question :: (lexemes' ++ .punct .colon :: lexemes'')) := by
  intro file ts hts
  obtain ⟨ts₁, us₁, rfl, hts₁, hus₁⟩ := List.map_eq_append_iff.1 hts
  obtain ⟨r, us₂, rfl, hus₂⟩ := exists_of_map_cons hus₁
  obtain ⟨ts₂, us₃, rfl, hts₂, hus₃⟩ := List.map_eq_append_iff.1 hus₂
  obtain ⟨r', ts₃, rfl, hts₃⟩ := exists_of_map_cons hus₃
  obtain ⟨test', htest, hs₁⟩ := ht file ts₁ hts₁
  obtain ⟨yes', hyes, hs₂⟩ := hy file ts₂ hts₂
  obtain ⟨no', hno, hs₃⟩ := hn file ts₃ hts₃
  exact ⟨_, by simp only [Expr.unlocated, htest, hyes, hno], .ternary r r' hs₁ hs₂ hs₃⟩

/-! ### Operators -/

/-- The mark of an operator is read as this operator. -/
theorem BinaryOp.ofPunct?_mark (op : BinaryOp) : BinaryOp.ofPunct? op.mark = some op := by
  rcases op with _ | _ | (_ | _ | _ | _ | _ | _) | (_ | _ | _ | _ | _) <;> rfl

/-- Operations are the same up to locations if their operands are. -/
theorem unlocated_build {op : BinaryOp} {left left' right right' : Expr} {location : Location}
    (hl : left'.unlocated = left.unlocated) (hr : right'.unlocated = right.unlocated)
    (location' : Location) :
    (op.build left' right' location').unlocated = (op.build left right location).unlocated := by
  cases op <;> simp only [BinaryOp.build, Expr.unlocated, hl, hr]

/-- A binary operator, whose right operand binds tighter. -/
theorem spelledBy_binary {op : BinaryOp} {left right : Expr} (location : Location)
    (hl : left.SpelledBy (.binary op.level) lexemes)
    (hr : right.SpelledBy (.binary (op.level + 1)) lexemes') :
    (op.build left right location).SpelledBy (.binary op.level)
      (lexemes ++ .punct op.mark :: lexemes') := by
  intro file ts hts
  obtain ⟨us, vs', rfl, hus, hvs'⟩ := List.map_eq_append_iff.1 hts
  obtain ⟨r, vs, rfl, hvs⟩ := exists_of_map_cons hvs'
  obtain ⟨left', hleft, hls⟩ := hl file us hus
  obtain ⟨right', hright, hrs⟩ := hr file vs hvs
  exact ⟨_, unlocated_build hleft hright _, .binary r (BinaryOp.ofPunct?_mark op) hls hrs⟩

/-- A `??` that stands alone. -/
theorem spelledBy_quiet (he : e.SpelledBy .coalesce lexemes) :
    (Expr.quiet e).SpelledBy .coalesce (lexemes ++ [.punct .coalesce]) := by
  intro file ts hts
  obtain ⟨us, vs, rfl, hus, hvs⟩ := List.map_eq_append_iff.1 hts
  obtain ⟨r, rfl⟩ := exists_of_map_singleton hvs
  obtain ⟨e', heq, hs⟩ := he file us hus
  exact ⟨_, by simp only [Expr.unlocated, heq], .quiet r hs⟩

/-- The right side of `??`, which may not start with a sign. -/
theorem spelledBy_coalesce {fallback : Expr} (he : e.SpelledBy .coalesce lexemes)
    (hf : fallback.SpelledBy .unary lexemes') (hsign : startsSigned lexemes' = false) :
    (Expr.coalesce e fallback).SpelledBy .coalesce (lexemes ++ .punct .coalesce :: lexemes') := by
  intro file ts hts
  obtain ⟨us, vs', rfl, hus, hvs'⟩ := List.map_eq_append_iff.1 hts
  obtain ⟨r, vs, rfl, hvs⟩ := exists_of_map_cons hvs'
  obtain ⟨e', heq, hs⟩ := he file us hus
  obtain ⟨fallback', hfallback, hfs⟩ := hf file vs hvs
  -- the right side begins with a token that may start one: it begins with no sign
  have hstart : ∀ t ∈ vs.head?, t.lexeme.startsOperand = true := by
    obtain ⟨t, tail, rfl, hstart, -⟩ := hfs.begins
    rintro t' ⟨⟩
    refine hstart.resolve_right ?_
    rw [← hvs] at hsign
    simpa [startsSigned] using hsign
  exact ⟨_, by simp only [Expr.unlocated, heq, hfallback], .coalesce r hs hfs hstart⟩

/-- A negation. -/
theorem spelledBy_not (he : e.SpelledBy .unary lexemes) :
    (Expr.not e).SpelledBy .unary (.punct .not :: lexemes) := by
  intro file ts hts
  obtain ⟨r, us, rfl, hus⟩ := exists_of_map_cons hts
  obtain ⟨e', heq, hs⟩ := he file us hus
  exact ⟨_, by simp only [Expr.unlocated, heq], .not r hs⟩

/-- Locations do not matter for what is a number. -/
theorem isNumber_unlocated (e : Expr) : e.unlocated.isNumber = e.isNumber := by
  cases e <;> rfl

/-- A sign stays in front of an operand that is no number. -/
theorem ofSign_of_not_isNumber {sign : Sign} (h : e.isNumber = false) (location : Location) :
    Expr.ofSign sign e location = .sign sign e location := by
  cases e with
  | const v => cases v <;> cases sign <;> first | rfl | simp [Expr.isNumber, Value.isNumber] at h
  | _ => rfl

/-- A sign in front of what is no number, so that it is not folded. -/
theorem spelledBy_sign {sign : Sign} (location : Location) (he : e.SpelledBy .unary lexemes)
    (hnumber : e.isNumber = false) :
    (Expr.sign sign e location).SpelledBy .unary (.punct sign.mark :: lexemes) := by
  intro file ts hts
  obtain ⟨r, us, rfl, hus⟩ := exists_of_map_cons hts
  obtain ⟨e', heq, hs⟩ := he file us hus
  have hnumber' : e'.isNumber = false := by
    rw [← isNumber_unlocated, heq, isNumber_unlocated, hnumber]
  have hsign : sign? (.punct sign.mark) = some sign := by cases sign <;> rfl
  refine ⟨_, ?_, .sign r hsign hs⟩
  rw [ofSign_of_not_isNumber hnumber']
  simp only [Expr.unlocated, heq]

/-- A step, in front of its variable or behind it. -/
theorem spelledBy_step (step : Step) (early : Bool) (x : String) (location : Location) :
    (Expr.step step early x location).SpelledBy (Expr.step step early x location).level
      (if early then [.punct step.mark, .name x] else [.name x, .punct step.mark]) := by
  have hstep : step? (.punct step.mark) = some step := by cases step <;> rfl
  cases early with
  -- in front of its variable, the mark of the step is the first token
  | true =>
    intro file ts hts
    obtain ⟨r, us, rfl, hus⟩ := exists_of_map_cons hts
    obtain ⟨r', rfl⟩ := exists_of_map_singleton hus
    exact ⟨_, by simp only [Expr.unlocated], .stepBefore x r r' hstep⟩
  -- behind it, the mark is the second token
  | false =>
    intro file ts hts
    obtain ⟨r, us, rfl, hus⟩ := exists_of_map_cons hts
    obtain ⟨r', rfl⟩ := exists_of_map_singleton hus
    exact ⟨_, by simp only [Expr.unlocated], .stepAfter r' hstep (.loosen (.var x r))⟩

/-! ### Members, calls and chains -/

/-- Names with points between them are spelled as a namespace. -/
theorem spellsNamespace_words {words : List String} (hw : words ≠ []) {ts : List Token}
    (hts : ts.map Token.lexeme = (words.map Lexeme.name).intersperse (.punct .dot)) :
    ∃ r, SpellsNamespace (".".intercalate words) r ts := by
  -- by induction on the names: behind the first stands a point, and then another namespace
  induction words generalizing ts with
  | nil => exact absurd rfl hw
  | cons word words ih =>
    cases words with
    | nil =>
      obtain ⟨r, rfl⟩ := exists_of_map_singleton hts
      rw [String.intercalate_singleton]
      exact ⟨r, .word word r⟩
    | cons word' words =>
      obtain ⟨r, us, rfl, hus⟩ := exists_of_map_cons hts
      obtain ⟨r', vs, rfl, hvs⟩ := exists_of_map_cons hus
      obtain ⟨r'', hs⟩ := ih (by simp) hvs
      rw [String.intercalate_cons_cons]
      exact ⟨r, .dot word r r' hs⟩

/-- The names of a namespace, put together, are the namespace. -/
theorem intercalate_namespaceWords (space : String) :
    ".".intercalate (namespaceWords space) = space := by
  have hchars : (namespaceWords space).map String.toList = space.toList.splitOn '.' := by
    rw [namespaceWords, List.map_map]
    exact List.map_id'' (fun _ => String.toList_ofList) _
  apply String.toList_injective
  rw [String.toList_intercalate, hchars]
  exact List.intercalate_splitOn '.'

/-- The tokens of a namespace spell it. -/
theorem spellsNamespace_lexemes {space : String} {ts : List Token}
    (hts : ts.map Token.lexeme = namespaceLexemes space) : ∃ r, SpellsNamespace space r ts := by
  have hwords : namespaceWords space ≠ [] := by
    simp [namespaceWords, List.splitOn_ne_nil]
  have := spellsNamespace_words hwords hts
  rwa [intercalate_namespaceWords] at this

/-- A field of a namespace. -/
theorem spelledBy_staticField (space x : String) (location : Location) :
    (Expr.staticField space x location).SpelledBy .member
      (namespaceLexemes space ++ [.punct .doubleColon, .name x]) := by
  intro file ts hts
  obtain ⟨us, vs, rfl, hus, hvs⟩ := List.map_eq_append_iff.1 hts
  obtain ⟨r', ws, rfl, hws⟩ := exists_of_map_cons hvs
  obtain ⟨r'', rfl⟩ := exists_of_map_singleton hws
  obtain ⟨r, hspace⟩ := spellsNamespace_lexemes hus
  exact ⟨_, by simp only [Expr.unlocated], .staticField x r' r'' hspace⟩

variable {args : List Expr}

/-- A method of a namespace. -/
theorem spelledBy_staticCall (space x : String) (location : Location)
    (ha : ArgumentsSpelledBy args lexemes) :
    (Expr.staticCall space x args location).SpelledBy .member
      (namespaceLexemes space ++ .punct .doubleColon :: .name x :: lexemes) := by
  intro file ts hts
  obtain ⟨us, vs, rfl, hus, hvs⟩ := List.map_eq_append_iff.1 hts
  obtain ⟨r', ws, rfl, hws⟩ := exists_of_map_cons hvs
  obtain ⟨r'', zs, rfl, hzs⟩ := exists_of_map_cons hws
  obtain ⟨r, hspace⟩ := spellsNamespace_lexemes hus
  obtain ⟨args', heq, hs⟩ := ha file zs hzs
  exact ⟨_, by simp only [Expr.unlocated, heq], .staticCall x r' r'' hspace hs⟩

/-- A call. -/
theorem spelledBy_call (x : String) (location : Location) (ha : ArgumentsSpelledBy args lexemes) :
    (Expr.call x args location).SpelledBy .member (.name x :: lexemes) := by
  intro file ts hts
  obtain ⟨r, us, rfl, hus⟩ := exists_of_map_cons hts
  obtain ⟨args', heq, hs⟩ := ha file us hus
  exact ⟨_, by simp only [Expr.unlocated, heq], .call x r hs⟩

/-- A key behind a target. -/
theorem spelledBy_index {target key : Expr} (location : Location)
    (ht : target.SpelledBy .member lexemes) (hk : key.SpelledBy .assignment lexemes') :
    (Expr.index target key location).SpelledBy .member
      (lexemes ++ .punct .lbracket :: (lexemes' ++ [.punct .rbracket])) := by
  intro file ts hts
  obtain ⟨us, vs, rfl, hus, hvs⟩ := List.map_eq_append_iff.1 hts
  obtain ⟨r, ws', rfl, hws'⟩ := exists_of_map_cons hvs
  obtain ⟨ws, zs, rfl, hws, hzs⟩ := List.map_eq_append_iff.1 hws'
  obtain ⟨r', rfl⟩ := exists_of_map_singleton hzs
  obtain ⟨target', htarget, hts⟩ := ht file us hus
  obtain ⟨key', hkey, hks⟩ := hk file ws hws
  exact ⟨_, by simp only [Expr.unlocated, htarget, hkey], .index r r' hts hks⟩

/-- A field behind a target. -/
theorem spelledBy_field {target : Expr} (x : String) (location : Location)
    (ht : target.SpelledBy .member lexemes) :
    (Expr.field target x location).SpelledBy .member (lexemes ++ [.punct .dot, .name x]) := by
  intro file ts hts
  obtain ⟨us, vs, rfl, hus, hvs⟩ := List.map_eq_append_iff.1 hts
  obtain ⟨r, ws, rfl, hws⟩ := exists_of_map_cons hvs
  obtain ⟨r', rfl⟩ := exists_of_map_singleton hws
  obtain ⟨target', htarget, hts⟩ := ht file us hus
  exact ⟨_, by simp only [Expr.unlocated, htarget], .field x r r' hts⟩

/-- A method behind a target. -/
theorem spelledBy_method {target : Expr} (x : String) (location : Location)
    (ht : target.SpelledBy .member lexemes) (ha : ArgumentsSpelledBy args lexemes') :
    (Expr.method target x args location).SpelledBy .member
      (lexemes ++ .punct .dot :: .name x :: lexemes') := by
  intro file ts hts
  obtain ⟨us, vs, rfl, hus, hvs⟩ := List.map_eq_append_iff.1 hts
  obtain ⟨r, ws, rfl, hws⟩ := exists_of_map_cons hvs
  obtain ⟨r', zs, rfl, hzs⟩ := exists_of_map_cons hws
  obtain ⟨target', htarget, hts⟩ := ht file us hus
  obtain ⟨args', heq, hs⟩ := ha file zs hzs
  exact ⟨_, by simp only [Expr.unlocated, htarget, heq], .method x r r' hts hs⟩

/-! ### Lists and maps -/

/-- One item more. -/
theorem itemsSpelledBy_cons {es : List Expr} (he : e.SpelledBy .assignment lexemes)
    (hes : ItemsSpelledBy es lexemes') :
    ItemsSpelledBy (e :: es) (.punct .comma :: (lexemes ++ lexemes')) := by
  intro file ts hts
  obtain ⟨r, us', rfl, hus'⟩ := exists_of_map_cons hts
  obtain ⟨us, vs, rfl, hus, hvs⟩ := List.map_eq_append_iff.1 hus'
  obtain ⟨e', heq, hs⟩ := he file us hus
  obtain ⟨es', heqs, hss⟩ := hes file vs hvs
  exact ⟨e' :: es', by simp only [unlocatedAll, heq, heqs], .moreItems r hs hss⟩

/-- No arguments. -/
theorem argumentsSpelledBy_nil : ArgumentsSpelledBy [] (inParens []) := by
  intro file ts hts
  obtain ⟨r, us, rfl, hus⟩ := exists_of_map_cons hts
  obtain ⟨r', rfl⟩ := exists_of_map_singleton hus
  exact ⟨[], rfl, .noArguments r r'⟩

/-- One argument, and the items behind it. -/
theorem argumentsSpelledBy_cons {es : List Expr} (he : e.SpelledBy .assignment lexemes)
    (hes : ItemsSpelledBy es lexemes') :
    ArgumentsSpelledBy (e :: es) (inParens (lexemes ++ lexemes')) := by
  intro file ts hts
  obtain ⟨r, us', rfl, hus'⟩ := exists_of_map_cons hts
  obtain ⟨us, vs, rfl, hus, hvs⟩ := List.map_eq_append_iff.1 hus'
  obtain ⟨us₁, us₂, rfl, hus₁, hus₂⟩ := List.map_eq_append_iff.1 hus
  obtain ⟨r', rfl⟩ := exists_of_map_singleton hvs
  obtain ⟨e', heq, hs⟩ := he file us₁ hus₁
  obtain ⟨es', heqs, hss⟩ := hes file us₂ hus₂
  exact ⟨e' :: es', by simp only [unlocatedAll, heq, heqs], .arguments r r' hs hss⟩

/-- An empty list. -/
theorem spelledBy_emptyList :
    (Expr.list []).SpelledBy .primary [.punct .lbracket, .punct .rbracket] := by
  intro file ts hts
  obtain ⟨r, us, rfl, hus⟩ := exists_of_map_cons hts
  obtain ⟨r', rfl⟩ := exists_of_map_singleton hus
  exact ⟨_, rfl, .emptyList r r'⟩

/-- A list with a first item, and the items behind it. -/
theorem spelledBy_list {es : List Expr} (he : e.SpelledBy .assignment lexemes)
    (hes : ItemsSpelledBy es lexemes') :
    (Expr.list (e :: es)).SpelledBy .primary
      (.punct .lbracket :: (lexemes ++ lexemes' ++ [.punct .rbracket])) := by
  intro file ts hts
  obtain ⟨r, us', rfl, hus'⟩ := exists_of_map_cons hts
  obtain ⟨us, vs, rfl, hus, hvs⟩ := List.map_eq_append_iff.1 hus'
  obtain ⟨us₁, us₂, rfl, hus₁, hus₂⟩ := List.map_eq_append_iff.1 hus
  obtain ⟨r', rfl⟩ := exists_of_map_singleton hvs
  obtain ⟨e', heq, hs⟩ := he file us₁ hus₁
  obtain ⟨es', heqs, hss⟩ := hes file us₂ hus₂
  exact ⟨_, by simp only [Expr.unlocated, unlocatedAll, heq, heqs], .list r r' hs hss⟩

/-- A range. -/
theorem spelledBy_range {first last : Expr} (location : Location)
    (hf : first.SpelledBy .assignment lexemes) (hl : last.SpelledBy .assignment lexemes') :
    (Expr.range first last location).SpelledBy .primary
      (.punct .lbracket :: (lexemes ++ .punct .range :: (lexemes' ++ [.punct .rbracket]))) := by
  intro file ts hts
  obtain ⟨r, us', rfl, hus'⟩ := exists_of_map_cons hts
  obtain ⟨us, vs, rfl, hus, hvs⟩ := List.map_eq_append_iff.1 hus'
  obtain ⟨r', ws', rfl, hws'⟩ := exists_of_map_cons hvs
  obtain ⟨ws, zs, rfl, hws, hzs⟩ := List.map_eq_append_iff.1 hws'
  obtain ⟨r'', rfl⟩ := exists_of_map_singleton hzs
  obtain ⟨first', hfirst, hfs⟩ := hf file us hus
  obtain ⟨last', hlast, hls⟩ := hl file ws hws
  exact ⟨_, by simp only [Expr.unlocated, hfirst, hlast], .range r r' r'' hfs hls⟩

/-- A map of one entry. -/
theorem entriesSpelledBy_single {value : Expr} (key : String)
    (hv : value.SpelledBy .assignment lexemes) :
    EntriesSpelledBy [key] [value] (.text key :: .punct .colon :: lexemes) := by
  intro file ts hts
  obtain ⟨r, us, rfl, hus⟩ := exists_of_map_cons hts
  obtain ⟨r', vs, rfl, hvs⟩ := exists_of_map_cons hus
  obtain ⟨value', heq, hs⟩ := hv file vs hvs
  exact ⟨[value'], by simp only [unlocatedAll, heq], .entry r r' rfl hs⟩

/-- One entry more. -/
theorem entriesSpelledBy_cons {keys : List String} {value : Expr} {values : List Expr}
    (key : String) (hv : value.SpelledBy .assignment lexemes)
    (hrest : EntriesSpelledBy keys values lexemes') :
    EntriesSpelledBy (key :: keys) (value :: values)
      (.text key :: .punct .colon :: (lexemes ++ .punct .comma :: lexemes')) := by
  intro file ts hts
  obtain ⟨r, us, rfl, hus⟩ := exists_of_map_cons hts
  obtain ⟨r', vs', rfl, hvs'⟩ := exists_of_map_cons hus
  obtain ⟨vs, ws, rfl, hvs, hws⟩ := List.map_eq_append_iff.1 hvs'
  obtain ⟨r'', zs, rfl, hzs⟩ := exists_of_map_cons hws
  obtain ⟨value', heq, hs⟩ := hv file vs hvs
  obtain ⟨values', heqs, hss⟩ := hrest file zs hzs
  exact ⟨value' :: values', by simp only [unlocatedAll, heq, heqs],
    .moreEntries r r' r'' rfl hs hss⟩

/-- An empty map. -/
theorem spelledBy_emptyMap :
    (Expr.map [] []).SpelledBy .primary [.punct .lbrace, .punct .rbrace] := by
  intro file ts hts
  obtain ⟨r, us, rfl, hus⟩ := exists_of_map_cons hts
  obtain ⟨r', rfl⟩ := exists_of_map_singleton hus
  exact ⟨_, rfl, .emptyMap r r'⟩

/-- A map with entries. -/
theorem spelledBy_map {keys : List String} {values : List Expr}
    (h : EntriesSpelledBy keys values lexemes) :
    (Expr.map keys values).SpelledBy .primary
      (.punct .lbrace :: (lexemes ++ [.punct .rbrace])) := by
  intro file ts hts
  obtain ⟨r, us', rfl, hus'⟩ := exists_of_map_cons hts
  obtain ⟨us, vs, rfl, hus, hvs⟩ := List.map_eq_append_iff.1 hus'
  obtain ⟨r', rfl⟩ := exists_of_map_singleton hvs
  obtain ⟨values', heqs, hss⟩ := h file us hus
  exact ⟨_, by simp only [Expr.unlocated, heqs], .map r r' hss⟩

/-! ### Everything that is printed spells -/

theorem startsSigned_inParens : startsSigned (inParens lexemes) = false := rfl

/-- The right side of `??` in its place. -/
theorem spelledBy_encloseFallback (extra : Expr → Bool) (h : e.SpelledBy e.level lexemes) :
    e.SpelledBy .unary (e.encloseFallback extra lexemes) ∧
      startsSigned (e.encloseFallback extra lexemes) = false := by
  have hinner : e.SpelledBy .assignment lexemes :=
    h.loosen_to e.level_proper trivial (Nat.zero_le _)
  rw [Expr.encloseFallback]
  split
  -- a fallback that would begin with a sign is put in parentheses
  · exact ⟨hinner.inParens.loosen_to trivial trivial (by decide), startsSigned_inParens⟩
  -- any other fallback stands as it is
  · rename_i hsign
    refine ⟨h.enclose extra .unary trivial, ?_⟩
    rw [Expr.enclose]
    split
    · exact startsSigned_inParens
    · exact Bool.not_eq_true _ ▸ hsign

/-- A binary operation whose operands have parentheses where they need them. -/
theorem spelledBy_printBinary (extra : Expr → Bool) (op : BinaryOp) {left right : Expr}
    (location : Location) (hl : left.SpelledBy left.level lexemes)
    (hr : right.SpelledBy right.level lexemes') :
    (op.build left right location).SpelledBy (.binary op.level)
      (printBinary extra op left right lexemes lexemes') :=
  spelledBy_binary location (hl.enclose extra _ (Nat.le_of_lt op.level_lt))
    (hr.enclose extra _ op.level_lt)

mutual

/-- **A printed expression is spelled by its tokens.** -/
theorem Expr.print_spelled (extra : Expr → Bool) :
    ∀ e : Expr, e.printable = true → e.SpelledBy e.level (e.print extra)
  | .const v, h => Value.spelledBy h
  -- by induction on the form, along the recursion of the printer, which puts every operand into its
  -- place
  -- by recursion on the expression, each operand enclosed as its place asks
  | .var x, _ => spelledBy_token fun file r => .var x r
  | .assign x value location, h => by
    simp only [Expr.printable, Bool.and_eq_true] at h
    exact spelledBy_assign x location
      ((value.print_spelled extra h.2).enclose extra .assignment trivial)
  | .assignAt x key value location, h => by
    simp only [Expr.printable, Bool.and_eq_true] at h
    exact spelledBy_assignAt x location
      ((key.print_spelled extra h.1.2).enclose extra .assignment trivial)
      ((value.print_spelled extra h.2).enclose extra .assignment trivial)
  | .ternary test yes no, h => by
    simp only [Expr.printable, Bool.and_eq_true] at h
    exact spelledBy_ternary
      ((test.print_spelled extra h.1.1).enclose extra (.binary 0) (Nat.zero_le _))
      ((yes.print_spelled extra h.1.2).enclose extra .assignment trivial)
      ((no.print_spelled extra h.2).enclose extra .assignment trivial)
  | .or left right, h => by
    simp only [Expr.printable, Bool.and_eq_true] at h
    exact spelledBy_printBinary extra .or .nowhere (left.print_spelled extra h.1)
      (right.print_spelled extra h.2)
  | .and left right, h => by
    simp only [Expr.printable, Bool.and_eq_true] at h
    exact spelledBy_printBinary extra .and .nowhere (left.print_spelled extra h.1)
      (right.print_spelled extra h.2)
  | .not operand, h =>
    spelledBy_not ((operand.print_spelled extra h).enclose extra .unary trivial)
  | .compare op left right location, h => by
    simp only [Expr.printable, Bool.and_eq_true] at h
    exact spelledBy_printBinary extra (.compare op) location (left.print_spelled extra h.1)
      (right.print_spelled extra h.2)
  | .arith op left right location, h => by
    simp only [Expr.printable, Bool.and_eq_true] at h
    exact spelledBy_printBinary extra (.arith op) location (left.print_spelled extra h.1)
      (right.print_spelled extra h.2)
  | .quiet operand, h =>
    spelledBy_quiet ((operand.print_spelled extra h).enclose extra .coalesce trivial)
  | .coalesce operand fallback, h => by
    simp only [Expr.printable, Bool.and_eq_true] at h
    obtain ⟨hfallback, hsign⟩ := spelledBy_encloseFallback extra (fallback.print_spelled extra h.2)
    exact spelledBy_coalesce ((operand.print_spelled extra h.1).enclose extra .coalesce trivial)
      hfallback hsign
  | .sign sign operand location, h => by
    simp only [Expr.printable, Bool.and_eq_true, Bool.not_eq_true'] at h
    exact spelledBy_sign location ((operand.print_spelled extra h.1).enclose extra .unary trivial)
      h.2
  | .step step true x location, _ => spelledBy_step step true x location
  | .step step false x location, _ => spelledBy_step step false x location
  | .staticField space x location, _ => spelledBy_staticField space x location
  | .staticCall space x args location, h => by
    simp only [Expr.printable, Bool.and_eq_true] at h
    exact spelledBy_staticCall space x location (printList_spelled extra args h.2)
  | .call x args location, h => by
    simp only [Expr.printable, Bool.and_eq_true] at h
    exact spelledBy_call x location (printList_spelled extra args h.2)
  | .index target key location, h => by
    simp only [Expr.printable, Bool.and_eq_true] at h
    exact spelledBy_index location ((target.print_spelled extra h.1).enclose extra .member trivial)
      ((key.print_spelled extra h.2).enclose extra .assignment trivial)
  | .field target x location, h => by
    simp only [Expr.printable, Bool.and_eq_true] at h
    exact spelledBy_field x location ((target.print_spelled extra h.1).enclose extra .member trivial)
  | .method target x args location, h => by
    simp only [Expr.printable, Bool.and_eq_true] at h
    exact spelledBy_method x location
      ((target.print_spelled extra h.1.1).enclose extra .member trivial)
      (printList_spelled extra args h.2)
  | .map [] [], _ => spelledBy_emptyMap
  | .map (_ :: _) [], h => by simp [Expr.printable] at h
  | .map keys (value :: values), h => by
    simp only [Expr.printable, Bool.and_eq_true, beq_iff_eq] at h
    exact spelledBy_map (printEntries_spelled extra (value :: values) keys h.1 (by simp) h.2)
  | .list [], _ => spelledBy_emptyList
  | .list (e :: es), h => by
    simp only [Expr.printable, allPrintable, Bool.and_eq_true] at h
    exact spelledBy_list ((e.print_spelled extra h.1).enclose extra .assignment trivial)
      (printItems_spelled extra es h.2)
  | .range first last location, h => by
    simp only [Expr.printable, Bool.and_eq_true] at h
    exact spelledBy_range location
      ((first.print_spelled extra h.1).enclose extra .assignment trivial)
      ((last.print_spelled extra h.2).enclose extra .assignment trivial)

/-- Printed arguments are spelled by their tokens. -/
theorem printList_spelled (extra : Expr → Bool) :
    ∀ es : List Expr, allPrintable es = true →
      ArgumentsSpelledBy es (inParens (printList extra es))
  | [], _ => argumentsSpelledBy_nil
  | e :: es, h => by
    simp only [allPrintable, Bool.and_eq_true] at h
    exact argumentsSpelledBy_cons ((e.print_spelled extra h.1).enclose extra .assignment trivial)
      (printItems_spelled extra es h.2)

/-- So are printed items. -/
theorem printItems_spelled (extra : Expr → Bool) :
    ∀ es : List Expr, allPrintable es = true → ItemsSpelledBy es (printItems extra es)
  | [], _ => by
    intro file ts hts
    obtain rfl := List.map_eq_nil_iff.1 hts
    exact ⟨[], rfl, .noItems⟩
  | e :: es, h => by
    simp only [allPrintable, Bool.and_eq_true] at h
    exact itemsSpelledBy_cons ((e.print_spelled extra h.1).enclose extra .assignment trivial)
      (printItems_spelled extra es h.2)

/-- So are printed entries, if there is a key for every value. -/
theorem printEntries_spelled (extra : Expr → Bool) :
    ∀ (values : List Expr) (keys : List String), keys.length = values.length → values ≠ [] →
      allPrintable values = true → EntriesSpelledBy keys values (printEntries extra keys values)
  | [], _, _, hne, _ => absurd rfl hne
  -- keys and values are as many, so both lists end together
  | value :: values, [], hl, _, _ => by simp at hl
  | value :: [], key :: [], _, _, h => by
    simp only [allPrintable, Bool.and_eq_true] at h
    have hv := (value.print_spelled extra h.1).enclose extra .assignment trivial
    simpa [printEntries] using entriesSpelledBy_single key hv
  | value :: [], _ :: _ :: _, hl, _, _ => by simp at hl
  | value :: _ :: _, _ :: [], hl, _, _ => by simp at hl
  | value :: value' :: values, key :: key' :: keys, hl, _, h => by
    rw [allPrintable, Bool.and_eq_true] at h
    have hv := (value.print_spelled extra h.1).enclose extra .assignment trivial
    have hrest := printEntries_spelled extra (value' :: values) (key' :: keys)
      (by simpa using hl) (by simp) h.2
    exact entriesSpelledBy_cons key hv hrest

end

end Stencil
