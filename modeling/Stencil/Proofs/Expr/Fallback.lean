import Mathlib
import Stencil.Proofs.Expr.Derivation
import Stencil.Proofs.Expr.Joining
import Stencil.Proofs.Expr.Spelling
import Stencil.Proofs.Render.NullSafety

/-!
# The right side of `??`

`parseUnary` reads a text as one operand with the operators before it, with the parser that `??`
calls for both of its sides. Two such texts with `??` between them are parsed as `??` with both
operands, unless the second one begins with a sign (`firstSign?`): the mark has a right side only if
the next token can start one (`Lexeme.startsOperand`), and of the tokens that operands begin with
these are all but the signs (`Spells.startsOperand_iff`). Before a sign the mark stands alone, and
the sign is the operator of a sum or a difference.

The grammar does the work: the texts are scanned for the tokens of both (`scanTokens_append`), which
spell the operands, and what the tokens together spell is what they are parsed as.

Main statement: `parseExprs_coalesce`.
-/

namespace Stencil

open Parse

/-! ### Texts that are one operand -/

/-- An operand with the operators before it, and nothing else. -/
def Parse.wholeUnary (n : Nat) : Parse Expr := do
  let e ← unary n
  finish
  return e

/-- The operand with the operators before it that a text is. -/
def parseUnary := parseWith Parse.wholeUnary

variable {file : Option String} {row : Nat} {text : String} {e : Expr}

/-- A text is parsed as an operand if and only if its tokens spell the operand. -/
theorem parseUnary_eq_ok_iff :
    parseUnary file row text = .ok e ↔
      ∃ ts last, scanTokens row text.toList = .ok (ts, last) ∧
        Spells file (.expr .unary e) ts := by
  constructor
  · intro h
    obtain ⟨ts, last, n, rest, hscan, hrun⟩ := exists_of_parseWith h
    obtain ⟨e', mid, hunary, hend⟩ := bind_eq_ok hrun
    obtain ⟨us, rfl, hus⟩ := (derives ⟨file, last⟩ n).operand .unary hunary
    obtain ⟨_, mid', hfinish, hpure⟩ := bind_eq_ok hend
    obtain ⟨rfl, -⟩ := finish_eq_ok hfinish
    obtain ⟨rfl, -⟩ := pure_eq_ok hpure
    exact ⟨us ++ [], last, hscan, by rwa [List.append_nil]⟩
  · rintro ⟨ts, last, hscan, hspells⟩
    -- the parser has enough steps for the tokens it is given
    have hreads : Phrase.ReadBy ⟨file, last⟩ (.expr .unary e) ts := Spells.readBy hspells
    have hcost : 16 * ts.length + Level.unary.cost ≤ 16 * (ts.length + 2) := by
      simp only [Level.cost]
      omega
    have hunary : unary (16 * (ts.length + 2)) ⟨file, last⟩ (ts ++ []) = .ok (e, []) :=
      hreads.1.complete hcost (follows_nil _) (by decide)
    rw [List.append_nil] at hunary
    refine parseWith_eq_ok [] hscan ?_
    rw [wholeUnary, bind_apply, hunary]
    rfl

/-! ### Signs in front -/

/-- The sign that a text begins with. -/
def firstSign? (text : List Char) : Option Sign :=
  match text.dropWhile Text.isBlank with
  | [] => none
  | c :: cs =>
    match scanLexeme c cs with
    | .error _ => none
    | .ok (lexeme, _, _) => sign? lexeme

/-- The sign that a text begins with is read off its first token. -/
theorem firstSign?_of_scanTokens {text : List Char} {t : Token} {ts : List Token} {last : Nat}
    (h : scanTokens row text = .ok (t :: ts, last)) : firstSign? text = sign? t.lexeme := by
  rw [scanTokens] at h
  split at h
  · cases h
  -- blanks in front are passed over, so the first token begins at the first visible character
  · rename_i c cs hrest
    rw [firstSign?, hrest]
    dsimp only
    split at h
    · cases h
    · rename_i lexeme rest rows hlex
      rw [hlex]
      split at h
      · cases h
      · simp only [Except.ok.injEq, Prod.mk.injEq, List.cons.injEq] at h
        obtain ⟨⟨rfl, -⟩, -⟩ := h
        rfl

/-- Of the tokens that an operand can begin with, all but the signs can start the right side of
`??`. -/
theorem Spells.startsOperand_iff {t : Token} {ts : List Token}
    (h : Spells file (.expr .unary e) (t :: ts)) :
    t.lexeme.startsOperand = true ↔ sign? t.lexeme = none := by
  obtain ⟨t', tail, heq, hbegins, -⟩ := h.begins
  obtain ⟨rfl, rfl⟩ := List.cons.inj heq
  -- a name, a keyword, a text and a number are no signs and start every operand
  constructor
  · intro hstart
    cases hlexeme : t.lexeme with
    -- among the marks it is a matter of their finite list
    | punct mark =>
      rw [hlexeme] at hstart
      cases mark <;> first | rfl | cases hstart
    | name | keyword | text | number => rfl
  · intro hsign
    -- an operand that begins with a sign is a sign and an operand
    refine hbegins.resolve_right ?_
    rw [hsign]
    exact Bool.false_ne_true

/-- Behind a sign in front there is the operand that it stands before. -/
theorem Spells.of_sign {t : Token} {ts : List Token} {sign : Sign}
    (h : Spells file (.expr .unary e) (t :: ts)) (hsign : sign? t.lexeme = some sign) :
    ∃ operand, e = .ofSign sign operand ⟨file, t.row⟩ ∧
      Spells file (.expr .unary operand) ts := by
  cases h with
  | loosen h =>
    -- What binds tighter begins with no operator.
    obtain ⟨t', tail, heq, -, hunary⟩ := h.begins
    obtain ⟨rfl, rfl⟩ := List.cons.inj heq
    have hno := hunary (by decide)
    simp [Lexeme.isUnaryOp, hsign] at hno
  | @stepBefore lexeme step x r r' hstep =>
    -- No token is both a sign and a step.
    cases lexeme with
    | punct mark => cases mark <;> simp [step?, sign?] at hstep hsign
    | name | keyword | text | number => cases hsign
  | not r h => cases hsign
  | sign r hsign' h =>
    obtain rfl := Option.some.inj (hsign'.symm.trans hsign)
    exact ⟨_, rfl, h⟩

/-! ### Two texts with `??` between them -/

/-- The operator that a sign is between two operands. -/
def Sign.between : Sign → ArithOp
  | .minus => .sub
  | .plus => .add

/-- A sign is also an operator between two operands. -/
theorem ofPunct?_of_sign? {lexeme : Lexeme} {sign : Sign} (h : sign? lexeme = some sign) :
    ∃ mark, lexeme = .punct mark ∧ BinaryOp.ofPunct? mark = some (.arith sign.between) := by
  cases lexeme with
  | punct mark =>
    refine ⟨mark, rfl, ?_⟩
    cases mark <;> cases h <;> rfl
  | name | keyword | text | number => cases h

/-- A mark between two texts, with a space before and behind it, is scanned as one. -/
theorem scanTokens_coalesce {a u : String} {ts us : List Token} {middle last : Nat}
    (ha : scanTokens row a.toList = .ok (ts, middle))
    (hu : scanTokens middle u.toList = .ok (us, last)) :
    scanTokens row (a ++ " ?? " ++ u).toList =
      .ok (ts ++ ⟨.punct .coalesce, middle⟩ :: us, last) := by
  have hspace : ∀ c ∈ [' '], Text.isBlank c = true := by
    intro c hc
    rw [List.mem_singleton.1 hc, isBlank_space]
  have hrest : scanTokens middle (' ' :: u.toList) = .ok (us, last) :=
    (scanTokens_blanks hspace middle u.toList).trans hu
  -- behind each space the next text is scanned on its own
  have hmark : scanTokens middle ('?' :: '?' :: ' ' :: u.toList) =
      .ok (⟨.punct .coalesce, middle⟩ :: us, last) :=
    scanTokens_cons (isBlank_of_visible (by decide)) rfl hrest
  have hbehind : scanTokens middle (' ' :: '?' :: '?' :: ' ' :: u.toList) =
      .ok (⟨.punct .coalesce, middle⟩ :: us, last) :=
    (scanTokens_blanks hspace middle _).trans hmark
  rw [String.toList_append, String.toList_append, List.append_assoc]
  exact scanTokens_append ha (by rintro c ⟨⟩; exact .inl rfl) hbehind

variable {a u : String} {ea eu : Expr}

/-- Without a sign in front, the second text is the right side of the mark. -/
theorem parseExprs_coalesce_of_no_sign (ha : parseUnary file row a = .ok ea)
    (hu : parseUnary file (row + lineFeeds a.toList) u = .ok eu)
    (hsign : firstSign? u.toList = none) :
    parseExprs file row (a ++ " ?? " ++ u) = .ok [.coalesce ea eu] := by
  obtain ⟨ts, middle, hts, hea⟩ := parseUnary_eq_ok_iff.1 ha
  obtain rfl := last_scanTokens hts
  obtain ⟨us, last, hus, heu⟩ := parseUnary_eq_ok_iff.1 hu
  have hstart : ∀ t ∈ us.head?, t.lexeme.startsOperand = true := by
    obtain ⟨t, tail, rfl⟩ := List.exists_cons_of_ne_nil heu.ne_nil
    rintro t' ⟨⟩
    rw [heu.startsOperand_iff, ← firstSign?_of_scanTokens hus]
    exact hsign
  have hboth := Spells.coalesce (row + lineFeeds a.toList) hea.loosen heu hstart
  exact parseExprs_of_spells_at (show Level.coalesce.Proper from trivial)
    (scanTokens_coalesce hts hus) hboth

/-- Behind a mark, a sign in front of the second text is the operator of a sum or a difference. -/
theorem parseExprs_coalesce_of_sign {sign : Sign} (ha : parseUnary file row a = .ok ea)
    (hu : parseUnary file (row + lineFeeds a.toList) u = .ok eu)
    (hsign : firstSign? u.toList = some sign) :
    ∃ operand location, eu = .ofSign sign operand location ∧
      parseExprs file row (a ++ " ?? " ++ u) =
        .ok [.arith sign.between (.quiet ea) operand location] := by
  obtain ⟨ts, middle, hts, hea⟩ := parseUnary_eq_ok_iff.1 ha
  obtain rfl := last_scanTokens hts
  obtain ⟨us, last, hus, heu⟩ := parseUnary_eq_ok_iff.1 hu
  obtain ⟨⟨lexeme, r⟩, tail, rfl⟩ := List.exists_cons_of_ne_nil heu.ne_nil
  rw [firstSign?_of_scanTokens hus] at hsign
  obtain ⟨operand, heq, hoperand⟩ := heu.of_sign hsign
  obtain ⟨mark, rfl, hmark⟩ := ofPunct?_of_sign? hsign
  refine ⟨operand, ⟨file, r⟩, heq, ?_⟩
  have hlevel : (BinaryOp.arith sign.between).level = 4 := by cases sign <;> rfl
  have hbinary (level : Nat) (hle : level ≤ levels) : (Level.binary level).Proper := hle
  -- The mark silences the first text, and the sign joins it with what is behind the sign.
  have hleft := (Spells.quiet (row + lineFeeds a.toList) hea.loosen).loosen_to
    (show Level.coalesce.Proper from trivial) (hbinary 4 (by decide)) (by decide)
  have hright := hoperand.loosen_to (show Level.unary.Proper from trivial)
    (hbinary 5 (by decide)) (by decide)
  rw [← hlevel] at hleft
  have hboth := Spells.binary r hmark hleft (by rwa [hlevel])
  rw [List.append_assoc, List.singleton_append] at hboth
  exact parseExprs_of_spells_at (hbinary _ (BinaryOp.level_lt _).le)
    (scanTokens_coalesce hts hus) hboth

/-- **The right side of `??`.** Take two texts that are one operand each, with any operators before
them, and write them with `??` in between. They are parsed as `??` with the one operand on its left
and the other one on its right if and only if the second text does not begin with a sign. If it
does, then the mark has no right side, and the sign is the operator of the whole: with the first
operand, silenced, on its left, and on its right what the second text has behind the sign.

And `??` has the value and the effects of its right operand whenever its left one is null, where
reads of null are forgiven. A variable that is null is such an operand. -/
theorem parseExprs_coalesce (ha : parseUnary file row a = .ok ea)
    (hu : parseUnary file (row + lineFeeds a.toList) u = .ok eu) :
    (parseExprs file row (a ++ " ?? " ++ u) = .ok [.coalesce ea eu] ↔
      firstSign? u.toList = none) ∧
    (∀ sign, firstSign? u.toList = some sign →
      ∃ operand location, eu = .ofSign sign operand location ∧
        parseExprs file row (a ++ " ?? " ++ u) =
          .ok [.arith sign.between (.quiet ea) operand location]) ∧
    ∀ (host : Host) (scope : ScopeId) (m after : Memory),
      (Eval.withNullSafe (ea.eval host scope)).runOn m = (.ok .null, after) →
        ((ea.coalesce eu).eval host scope).runOn m = (eu.eval host scope).runOn after := by
  refine ⟨⟨?_, parseExprs_coalesce_of_no_sign ha hu⟩, ?_, ?_⟩
  · intro hparse
    -- a sign at the front would have made a sum of it
    cases hsign : firstSign? u.toList with
    | none => rfl
    | some sign =>
      obtain ⟨operand, location, -, hsum⟩ := parseExprs_coalesce_of_sign ha hu hsign
      rw [hsum] at hparse
      cases hparse
  · intro sign hsign
    exact parseExprs_coalesce_of_sign ha hu hsign
  · intro host scope m after hnull
    exact Expr.eval_coalesce_of_null hnull eu

/-- A name is the operand of a variable. -/
theorem parseUnary_variable : parseUnary none 1 "x" = .ok (.var "x") := by
  have hscan : scanTokens 1 "x".toList = .ok ([⟨.name "x", 1⟩], 1) :=
    scanTokens_cons (isBlank_of_visible (by decide)) rfl (scanTokens_nil 1)
  have hspells := (Spells.var "x" 1 : Spells none _ _).loosen_to
    (show Level.primary.Proper from trivial) (show Level.unary.Proper from trivial) (by decide)
  exact parseUnary_eq_ok_iff.2 ⟨_, _, hscan, hspells⟩

/-- A sign in front of a number belongs to its tokens. -/
theorem spells_minusOne :
    Spells none (.expr .unary (.const (.int (-1))))
      [⟨.punct .minus, 1⟩, ⟨.number "1" (.int 1), 1⟩] := by
  have hone := (Spells.number "1" (.int 1) 1 : Spells none _ _).loosen_to
    (show Level.primary.Proper from trivial) (show Level.unary.Proper from trivial) (by decide)
  have hsign : sign? (.punct .minus) = some .minus := rfl
  exact .sign 1 hsign hone

/-- A sign behind another operator is no sign in front. -/
theorem parseExprs_coalesce_negated :
    let m : Memory := ⟨{}, .ofData .empty, {}⟩
    let fallback : Expr := .not (.const (.int (-1)))
    parseExprs none 1 "x ?? !-1" = .ok [.coalesce (.var "x") fallback] ∧
      ((Expr.coalesce (.var "x") fallback).eval {} 0).runOn m = (.ok (.bool false), m) := by
  intro m fallback
  have hfallback : parseUnary none 1 "!-1" = .ok fallback := by
    refine parseUnary_eq_ok_iff.2 ⟨_, 1, ?_, .not 1 spells_minusOne⟩
    exact scanTokens_cons (isBlank_of_visible (by decide)) rfl
      (scanTokens_cons (isBlank_of_visible (by decide)) rfl
        (scanTokens_cons (isBlank_of_visible (by decide)) rfl (scanTokens_nil 1)))
  obtain ⟨hparse, -, hnull⟩ := parseExprs_coalesce parseUnary_variable hfallback
  refine ⟨hparse.2 (by decide +kernel), ?_⟩
  have hvariable : ((Expr.var "x").eval {} 0).runOn m = (.ok .null, m) := by
    with_unfolding_all rfl
  exact hnull {} 0 m m (Expr.withNullSafe_of_eval hvariable)

/-- Not every text that is one operand is read as the right side of a `??` in front of it. -/
theorem not_parseExprs_coalesce :
    ¬ ∀ (file : Option String) (row : Nat) (a u : String) (ea eu : Expr),
      parseUnary file row a = .ok ea →
      parseUnary file (row + lineFeeds a.toList) u = .ok eu →
        parseExprs file row (a ++ " ?? " ++ u) = .ok [.coalesce ea eu] := by
  intro hall
  have hminus : parseUnary none 1 "-1" = .ok (.const (.int (-1))) := by
    refine parseUnary_eq_ok_iff.2 ⟨_, 1, ?_, spells_minusOne⟩
    exact scanTokens_cons (isBlank_of_visible (by decide)) rfl
      (scanTokens_cons (isBlank_of_visible (by decide)) rfl (scanTokens_nil 1))
  have hsign : firstSign? "-1".toList = some .minus := by decide +kernel
  have hcoalesce := hall none 1 "x" "-1" _ _ parseUnary_variable hminus
  obtain ⟨operand, location, -, hsum⟩ :=
    parseExprs_coalesce_of_sign parseUnary_variable hminus hsign
  rw [hsum] at hcoalesce
  cases hcoalesce

end Stencil
