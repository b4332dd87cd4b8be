import Mathlib
import Stencil.Proofs.Expr.Fallback

/-!
# Signs in front of an expression

A sign before a numeric constant is computed while a template is read (`Sign.fold?`), and any other
sign while it is rendered (`Value.signed`). The two agree wherever both apply
(`Sign.fold?_eq_some_iff`), and a constant that is no number keeps its sign, so that nobody can
tell from the values, the effects or the errors of a render which signs were computed early
(`Expr.eval_ofSign`).

* `SignsBefore text signs whole` says how signs are written before a text: each is a token of its
  own, with spaces behind it, or directly in front of what is no second sign of its kind.
* `OperandText` are the texts that signs can be written before: operands with the operators before
  them, and anything in parentheses.
* `Value.signedBy` puts signs before a value, the innermost one first. A render of the whole is a
  render of the operand, then this (`Expr.eval_ofSigns`).

Main statement: `signs_keep_meaning`.
-/

namespace Stencil

open Eval Parse

variable {file : Option String} {row : Nat} {e : Expr}

/-! ### Signs on values -/

/-- Puts signs before a value, from the last one to the first. -/
def Value.signedBy (v : Value) : List Sign → Except Fault Value
  | [] => .ok v
  | s :: signs => do
    let w ← v.signedBy signs
    w.signed s

namespace Value

/-- A sign before a number makes a number. -/
theorem exists_signed_of_isNumber {v : Value} (h : v.isNumber = true) (s : Sign) :
    ∃ w, v.signed s = .ok w ∧ w.isNumber = true := by
  cases s with
  | minus => cases v <;> first | exact ⟨_, rfl, rfl⟩ | cases h
  | plus => exact ⟨v, by rw [signed, if_pos h], h⟩

/-- A sign is refused before a value that is no number. -/
theorem signed_of_not_isNumber {v : Value} (h : v.isNumber = false) (s : Sign) :
    v.signed s = .error (.signedOperand s v.typeName) := by
  cases s with
  | minus => cases v <;> first | rfl | cases h
  | plus => rw [signed, if_neg (by simp [h])]

/-- Before a value that is no number, the innermost sign is refused. -/
theorem signedBy_of_not_isNumber {v : Value} (h : v.isNumber = false) {signs : List Sign}
    {s : Sign} (hs : s ∈ signs.getLast?) :
    v.signedBy signs = .error (.signedOperand s v.typeName) := by
  induction signs with
  | nil => cases hs
  | cons t signs ih =>
    cases signs with
    | nil =>
      obtain rfl : t = s := by simpa using hs
      exact signed_of_not_isNumber h t
    | cons t' signs =>
      -- The fault of an inner sign is that of the whole.
      rw [signedBy, ih (by simpa using hs)]
      rfl

end Value

/-! ### Evaluation -/

/-- A computation that goes on with the result of another one fails where either of them does. -/
theorem Eval.ofExcept_bind {α β : Type} (location : Location) (x : Except Fault α)
    (f : α → Except Fault β) :
    (ofExcept location x >>= fun a => ofExcept location (f a)) = ofExcept location (x >>= f) := by
  cases x <;> rfl

namespace Expr

variable (host : Host) (scope : ScopeId)

/-- **A sign that is computed early has the meaning of one that is not.** -/
theorem eval_ofSign (s : Sign) (operand : Expr) (location : Location) :
    (ofSign s operand location).eval host scope =
      operand.eval host scope >>= fun v => ofExcept location (v.signed s) := by
  cases operand with
  | const v =>
    rw [ofSign]
    cases hfold : s.fold? v with
    | none => rfl
    | some w =>
      have hsigned : v.signed s = .ok w := Sign.fold?_eq_some_iff.1 hfold
      calc (const w).eval host scope
          = ofExcept location (v.signed s) := by rw [hsigned]; rfl
        _ = (const v).eval host scope >>= fun v => ofExcept location (v.signed s) := rfl
  | _ => rfl

/-- An expression with signs before it, all at one location. -/
def ofSigns (location : Location) (signs : List Sign) (e : Expr) : Expr :=
  signs.foldr (fun s operand => ofSign s operand location) e

/-- Signs before an expression are put before its value. -/
theorem eval_ofSigns (location : Location) (signs : List Sign) (e : Expr) :
    (ofSigns location signs e).eval host scope =
      e.eval host scope >>= fun v => ofExcept location (v.signedBy signs) := by
  induction signs with
  | nil => exact (bind_pure _).symm
  | cons s signs ih =>
    calc (ofSigns location (s :: signs) e).eval host scope
        = (ofSigns location signs e).eval host scope >>= fun w => ofExcept location (w.signed s) :=
          eval_ofSign host scope s _ location
      _ = e.eval host scope >>= fun v => ofExcept location (v.signedBy signs) >>= fun w =>
            ofExcept location (w.signed s) := by rw [ih, bind_assoc]
      _ = e.eval host scope >>= fun v => ofExcept location (v.signedBy (s :: signs)) := by
          simp only [ofExcept_bind, Value.signedBy]

/-- Signs before a number are all computed early. -/
theorem ofSigns_const {v : Value} (h : v.isNumber = true) (location : Location)
    (signs : List Sign) :
    ∃ w, v.signedBy signs = .ok w ∧ w.isNumber = true ∧
      ofSigns location signs (const v) = const w := by
  induction signs with
  | nil => exact ⟨v, rfl, h, rfl⟩
  | cons s signs ih =>
    obtain ⟨w, hw, hnumber, hfolded⟩ := ih
    obtain ⟨u, hu, hnumber'⟩ := Value.exists_signed_of_isNumber hnumber s
    refine ⟨u, by rw [Value.signedBy, hw]; exact hu, hnumber', ?_⟩
    change ofSign s (ofSigns location signs (const v)) location = const u
    rw [hfolded, ofSign, Sign.fold?_eq_some_iff.2 hu]

end Expr

/-! ### Signs in texts -/

/-- The character of a sign. -/
def Sign.char : Sign → Char
  | minus => '-'
  | plus => '+'

/-- `SignsBefore text signs whole`: the text `whole` is `text` with signs before it, the outermost
one first. Behind each sign there are spaces, or else something other than the same sign. -/
inductive SignsBefore (text : List Char) : List Sign → List Char → Prop
  | nil : SignsBefore text [] text
  | cons {signs : List Sign} {rest : List Char} (s : Sign) (spaces : Nat) :
      SignsBefore text signs rest → (spaces = 0 → rest.head? ≠ some s.char) →
      SignsBefore text (s :: signs) (s.char :: (List.replicate spaces ' ' ++ rest))

/-- A sign is scanned as it is, unless another one of its kind stands directly behind it. -/
theorem scanLexeme_sign (s : Sign) {cs : List Char} (h : cs.head? ≠ some s.char) :
    scanLexeme s.char cs = .ok (.punct s.mark, cs, 0) := by
  -- The only marks of two characters that begin with a sign are the steps.
  have hsteps : ∀ entry ∈ doubleMarks, entry.1.1 = s.char → entry.1.2 = s.char := by
    cases s <;> decide
  have hdouble : ∀ entry ∈ doubleMarks, entry.1.1 = s.char → cs.head? ≠ some entry.1.2 := by
    intro entry hentry hfirst
    rwa [hsteps entry hentry hfirst]
  cases s with
  | minus => exact scanLexeme_mark (by decide) (by decide) (by decide) rfl hdouble
  | plus => exact scanLexeme_mark (by decide) (by decide) (by decide) rfl hdouble

/-- A sign in front of a text is scanned as a token of its own. -/
theorem scanTokens_sign (s : Sign) (spaces : Nat) {rest : List Char} {ts : List Token} {last : Nat}
    (hapart : spaces = 0 → rest.head? ≠ some s.char) (hrest : scanTokens row rest = .ok (ts, last)) :
    scanTokens row (s.char :: (List.replicate spaces ' ' ++ rest)) =
      .ok (⟨.punct s.mark, row⟩ :: ts, last) := by
  have hblanks : ∀ c ∈ List.replicate spaces ' ', Text.isBlank c = true := by
    intro c hc
    rw [List.eq_of_mem_replicate hc, isBlank_space]
  have hfeeds : lineFeeds (List.replicate spaces ' ') = 0 := by
    simp [lineFeeds, List.countP_replicate]
  have hbehind : scanTokens row (List.replicate spaces ' ' ++ rest) = .ok (ts, last) := by
    rw [scanTokens_blanks hblanks, hfeeds, Nat.add_zero, hrest]
  -- if no space follows, the text does not begin with the same sign, or both would make a step
  have hhead : (List.replicate spaces ' ' ++ rest).head? ≠ some s.char := by
    cases spaces with
    | zero => exact hapart rfl
    | succ n => cases s <;> simp [List.replicate_succ, Sign.char]
  have hvisible : Text.isBlank s.char = false := by
    cases s <;> exact isBlank_of_visible (by decide)
  exact scanTokens_cons hvisible (scanLexeme_sign s hhead) hbehind

/-- A text with signs before it has their tokens in front of its own, all of them in its row. -/
theorem SignsBefore.scanTokens {text whole : List Char} {signs : List Sign} {ts : List Token}
    {last : Nat} (h : SignsBefore text signs whole)
    (htext : Stencil.scanTokens row text = .ok (ts, last)) :
    Stencil.scanTokens row whole =
      .ok (signs.map (fun s => ⟨.punct s.mark, row⟩) ++ ts, last) := by
  induction h with
  | nil => exact htext
  | cons s spaces _ hapart ih => exact scanTokens_sign s spaces hapart ih

/-- Signs in front of an operand spell the operand with these signs. -/
theorem Spells.signs {ts : List Token} (h : Spells file (.expr .unary e) ts) (signs : List Sign)
    (row : Nat) :
    Spells file (.expr .unary (e.ofSigns ⟨file, row⟩ signs))
      (signs.map (fun s => ⟨.punct s.mark, row⟩) ++ ts) := by
  induction signs with
  | nil => exact h
  | cons s signs ih =>
    have hsign : sign? (.punct s.mark) = some s := by cases s <;> rfl
    exact .sign row hsign ih

/-! ### Operands in texts -/

/-- Any expression in parentheses is an operand. -/
theorem parseUnary_parens {inner : String} (h : parseExprs file row inner = .ok [e]) :
    parseUnary file row ("(" ++ inner ++ ")") = .ok e := by
  obtain ⟨ts, last, hscan, us, vs, rfl, hus, hvs⟩ := spells_of_parseExprs h
  -- the text in the parentheses is one expression, so nothing is left behind it
  obtain rfl : vs = [] := by
    cases hvs
    rfl
  have hclose : scanTokens last [')'] = .ok ([⟨.punct .rparen, last⟩], last) :=
    scanTokens_cons (isBlank_of_visible (by decide)) rfl (scanTokens_nil last)
  have hbehind : scanTokens row (inner.toList ++ [')']) =
      .ok (us ++ [⟨.punct .rparen, last⟩], last) := by
    rw [List.append_nil] at hscan
    exact scanTokens_append hscan (by rintro c ⟨⟩; exact .inr rfl) hclose
  have hopen : scanLexeme '(' (inner.toList ++ [')']) =
      .ok (.punct .lparen, inner.toList ++ [')'], 0) := by
    -- no mark of two characters begins with a parenthesis
    have hdouble : ∀ entry ∈ doubleMarks, entry.1.1 ≠ '(' := by decide
    refine scanLexeme_mark (by decide) (by decide) (by decide) rfl ?_
    exact fun entry hentry hfirst => absurd hfirst (hdouble entry hentry)
  have hspells : Spells file (.expr .unary e)
      (⟨.punct .lparen, row⟩ :: (us ++ [⟨.punct .rparen, last⟩])) :=
    (Spells.group row last hus).loosen_to (show Level.primary.Proper from trivial)
      (show Level.unary.Proper from trivial) (by decide)
  refine parseUnary_eq_ok_iff.2 ⟨_, last, ?_, hspells⟩
  rw [String.toList_append, String.toList_append]
  exact scanTokens_cons (isBlank_of_visible (by decide)) hopen hbehind

/-- `OperandText file row text e`: the text is the expression `e`, and signs may stand before it. It
is an operand with the operators before it, or anything in parentheses. -/
inductive OperandText (file : Option String) (row : Nat) : String → Expr → Prop
  | tight {text : String} {e : Expr} : parseUnary file row text = .ok e → OperandText file row text e
  | group {inner : String} {e : Expr} : parseExprs file row inner = .ok [e] →
      OperandText file row ("(" ++ inner ++ ")") e

/-- The text of an operand is parsed as the operand. -/
theorem OperandText.parseUnary {text : String} (h : OperandText file row text e) :
    Stencil.parseUnary file row text = .ok e := by
  cases h with
  | tight h => exact h
  | group h => exact parseUnary_parens h

/-- A text with signs before it is parsed as the expression with these signs. -/
theorem OperandText.parseExprs_signs {text : String} {signs : List Sign} {whole : List Char}
    (he : OperandText file row text e) (hsigns : SignsBefore text.toList signs whole) :
    parseExprs file row (String.ofList whole) = .ok [e.ofSigns ⟨file, row⟩ signs] := by
  obtain ⟨ts, last, hscan, hspells⟩ := parseUnary_eq_ok_iff.1 he.parseUnary
  have hwhole : scanTokens row (String.ofList whole).toList =
      .ok (signs.map (fun s => ⟨.punct s.mark, row⟩) ++ ts, last) := by
    rw [String.toList_ofList]
    exact hsigns.scanTokens hscan
  exact parseExprs_of_spells_at (show Level.unary.Proper from trivial) hwhole
    (hspells.signs signs row)

/-- **Signs computed early keep their meaning.** Take a text that is an expression which signs may
stand before, and write any signs before it. The whole is parsed as one expression, and in every
state its value, its effects and its error are those of the expression, with the signs put before
its value from the inside out, each failing at the row of the signs.

If the expression is a number, then all signs are computed early, into the number that they make
in this order. If it is any other constant, then nothing is: the innermost sign fails whenever the
expression is evaluated. -/
theorem signs_keep_meaning {text : String} {signs : List Sign} {whole : List Char}
    (he : OperandText file row text e) (hsigns : SignsBefore text.toList signs whole) :
    ∃ e', parseExprs file row (String.ofList whole) = .ok [e'] ∧
      (∀ (host : Host) (scope : ScopeId) (m : Memory),
        (e'.eval host scope).runOn m =
          (e.eval host scope >>= fun v => ofExcept ⟨file, row⟩ (v.signedBy signs)).runOn m) ∧
      (∀ v, e = .const v → v.isNumber = true →
        ∃ w, e' = .const w ∧ v.signedBy signs = .ok w) ∧
      (∀ v, e = .const v → v.isNumber = false → ∀ s ∈ signs.getLast?,
        ∀ (host : Host) (scope : ScopeId) (m : Memory),
          (e'.eval host scope).runOn m =
            (.error (.template (.signedOperand s v.typeName) ⟨file, row⟩), m)) := by
  refine ⟨e.ofSigns ⟨file, row⟩ signs, he.parseExprs_signs hsigns, ?_, ?_, ?_⟩
  · intro host scope m
    rw [Expr.eval_ofSigns]
  · rintro v rfl hnumber
    obtain ⟨w, hw, -, hfolded⟩ := Expr.ofSigns_const hnumber ⟨file, row⟩ signs
    exact ⟨w, hfolded, hw⟩
  · rintro v rfl hother s hs host scope m
    rw [Expr.eval_ofSigns, Expr.eval, pure_bind, Value.signedBy_of_not_isNumber hother hs]
    rfl

/-- The least int is its own negative, and `null` is refused by the sign next to it. -/
theorem signs_keep_meaning_least :
    (∃ e', parseExprs none 1 "- + -0x80000000" = .ok [e'] ∧ ∀ host scope m,
      (e'.eval host scope).runOn m = (.ok (.int Int32.minValue), m)) ∧
    ∃ e', parseExprs none 1 "- +(null)" = .ok [e'] ∧ ∀ host scope m,
      (e'.eval host scope).runOn m =
        (.error (.template (.signedOperand .plus "null") ⟨none, 1⟩), m) := by
  constructor
  · have hscan : scanTokens 1 "0x80000000".toList =
        .ok ([⟨.number "0x80000000" (.int Int32.minValue), 1⟩], 1) := by
      have hlexeme : scanLexeme '0' ['x', '8', '0', '0', '0', '0', '0', '0', '0'] =
          .ok (.number "0x80000000" (.int Int32.minValue), [], 0) := by
        with_unfolding_all rfl
      exact scanTokens_cons (isBlank_of_visible (by decide)) hlexeme (scanTokens_nil 1)
    -- the literal is one token, which spells the least int
    have hspells := (Spells.number "0x80000000" (.int Int32.minValue) 1 : Spells none _ _).loosen_to
      (show Level.primary.Proper from trivial) (show Level.unary.Proper from trivial) (by decide)
    have hleast : OperandText none 1 "0x80000000" (.const (.int Int32.minValue)) :=
      .tight (parseUnary_eq_ok_iff.2 ⟨_, _, hscan, hspells⟩)
    have hsigns : SignsBefore "0x80000000".toList [.minus, .plus, .minus]
        "- + -0x80000000".toList :=
      .cons .minus 1 (.cons .plus 1 (.cons .minus 0 .nil (by decide)) (by decide)) (by decide)
    obtain ⟨e', hparse, heval, -⟩ := signs_keep_meaning hleast hsigns
    refine ⟨e', hparse, fun host scope m => ?_⟩
    rw [heval]
    rfl
  · have hscan : scanTokens 1 "null".toList = .ok ([⟨.keyword .null, 1⟩], 1) :=
      scanTokens_cons (isBlank_of_visible (by decide)) rfl (scanTokens_nil 1)
    have hnull : parseExprs none 1 "null" = .ok [.const .null] :=
      parseExprs_of_spells_at (show Level.primary.Proper from trivial) hscan (.keyword .null 1)
    have hsigns : SignsBefore ("(" ++ "null" ++ ")").toList [.minus, .plus] "- +(null)".toList :=
      .cons .minus 1 (.cons .plus 0 .nil (by decide)) (by decide)
    obtain ⟨e', hparse, -, -, hfails⟩ := signs_keep_meaning (.group hnull) hsigns
    exact ⟨e', hparse, hfails .null rfl rfl .plus rfl⟩

end Stencil
