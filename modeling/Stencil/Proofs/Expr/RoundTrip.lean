import Mathlib
import Stencil.Proofs.Expr.Lexing
import Stencil.Proofs.Expr.Reading
import Stencil.Proofs.Expr.Spelling

/-!
# Parsing undoes printing

The text of a printable expression is parsed as this expression, up to the locations of its parts
(`parseExprs_print`). The printed tokens are scanned as they are, since each of them is scanned on
its own (`Expr.print_scans`); they spell the expression, and what is spelled is parsed.
-/

namespace Stencil

/-! ### Printed tokens are scanned on their own -/

/-- Tokens that are scanned from their characters. -/
def AllScan (lexemes : List Lexeme) : Prop := ∀ lexeme ∈ lexemes, lexeme.Scans

/-- No tokens are scanned one by one. -/
@[simp] theorem allScan_nil : AllScan [] := by simp [AllScan]

/-- A list of tokens is scanned one by one if its first and its rest are. -/
@[simp] theorem allScan_cons {lexeme : Lexeme} {lexemes : List Lexeme} :
    AllScan (lexeme :: lexemes) ↔ lexeme.Scans ∧ AllScan lexemes := by
  simp [AllScan]

/-- Likewise in two parts. -/
@[simp] theorem allScan_append {a b : List Lexeme} :
    AllScan (a ++ b) ↔ AllScan a ∧ AllScan b := by
  simp only [AllScan, List.mem_append]
  constructor
  · intro h
    exact ⟨fun l hl => h l (.inl hl), fun l hl => h l (.inr hl)⟩
  · rintro ⟨ha, hb⟩ l (hl | hl)
    · exact ha l hl
    · exact hb l hl

attribute [simp] scans_punct scans_keyword scans_text

/-- A name is scanned on its own. -/
theorem scans_name {word : String} (h : isName word = true) : (Lexeme.name word).Scans := by
  rw [isName] at h
  split at h
  · simp at h
  · rename_i c cs hchars
    simp only [Bool.and_eq_true, Bool.not_eq_true', decide_eq_false_iff_not, List.mem_cons,
      List.not_mem_nil, or_false, not_or] at h
    obtain ⟨⟨hc, hcs⟩, htrue, hfalse, hnull⟩ := h
    refine scans_word hc hcs hchars ?_
    rw [← hchars, String.ofList_toList, Lexeme.ofWord, if_neg htrue, if_neg hfalse, if_neg hnull]

/-- An integer is, if its bits and its digits are. -/
theorem allScan_integer {smallest i : Int} {bits : Lexeme} {decimal : Nat → Lexeme}
    (hbits : bits.Scans) (hdecimal : i ≠ smallest → (decimal i.natAbs).Scans) :
    AllScan (integerLexemes smallest bits decimal i) := by
  rw [integerLexemes]
  split
  · simpa using hbits
  · rename_i hs
    split <;> simpa using hdecimal hs

/-- The tokens of a constant are scanned on their own. -/
theorem Value.lexemes_scan (v : Value) : AllScan v.lexemes := by
  cases v with
  | null => simp [lexemes]
  | bool b => cases b <;> simp [lexemes]
  | int i =>
    -- any int but the smallest has a magnitude below it
    refine allScan_integer scans_smallestInt fun hs =>
      scans_decimal none (.inl rfl) (by simp [Decimal.ofNat]) ?_
    have hlow := i.le_toInt
    have hhigh := i.toInt_lt
    have hmin : Int32.minValue.toInt = -2 ^ 31 := by decide
    rw [show (2 : Nat) ^ (integerWidth none - 1) = 2 ^ 31 from rfl]
    omega
  | long l =>
    -- likewise for a long
    refine allScan_integer scans_smallestLong fun hs =>
      scans_decimal (some 'L') (.inr rfl) (by simp [Decimal.ofNat]) ?_
    have hlow := l.le_toInt
    have hhigh := l.toInt_lt
    have hmin : Int64.minValue.toInt = -2 ^ 63 := by decide
    rw [show (2 : Nat) ^ (integerWidth (some 'L') - 1) = 2 ^ 63 from rfl]
    omega
  | str s => simp [lexemes]
  | _ => simp [lexemes]

/-- So are those of a namespace. -/
theorem namespaceLexemes_scan {space : String} (h : (namespaceWords space).all isName = true) :
    AllScan (namespaceLexemes space) := by
  rw [namespaceLexemes]
  generalize namespaceWords space = words at h
  induction words with
  | nil => simp
  | cons word words ih =>
    rw [List.all_cons, Bool.and_eq_true] at h
    cases words with
    | nil => simpa using scans_name h.1
    | cons next words =>
      rw [List.map_cons, List.map_cons, List.intersperse_cons_cons, allScan_cons, allScan_cons]
      exact ⟨scans_name h.1, scans_punct _, ih h.2⟩

/-- Parentheses are scanned on their own, so they do not matter. -/
theorem allScan_inParens {lexemes : List Lexeme} :
    AllScan (inParens lexemes) ↔ AllScan lexemes := by
  simp [inParens]

/-- So an operand may have them or not. -/
theorem allScan_enclose (extra : Expr → Bool) {level : Level} {e : Expr} {lexemes : List Lexeme} :
    AllScan (e.enclose extra level lexemes) ↔ AllScan lexemes := by
  rw [Expr.enclose]
  split
  · exact allScan_inParens
  · rfl

/-- Likewise on the right side of `??`. -/
theorem allScan_encloseFallback (extra : Expr → Bool) {e : Expr} {lexemes : List Lexeme} :
    AllScan (e.encloseFallback extra lexemes) ↔ AllScan lexemes := by
  rw [Expr.encloseFallback]
  split
  · exact allScan_inParens
  · exact allScan_enclose extra

/-- The tokens of a binary operation are those of its operands, and its mark. -/
theorem allScan_printBinary (extra : Expr → Bool) {op : Parse.BinaryOp} {left right : Expr}
    {a b : List Lexeme} :
    AllScan (printBinary extra op left right a b) ↔ AllScan a ∧ AllScan b := by
  simp [printBinary, allScan_enclose]

mutual

/-- **Printed tokens are scanned on their own.** -/
theorem Expr.print_scans (extra : Expr → Bool) :
    ∀ e : Expr, e.printable = true → AllScan (e.print extra)
  | .const v, _ => v.lexemes_scan
  -- by induction on the form, along the recursion of the printer
  -- by recursion on the expression: every form is tokens around the tokens of its parts
  | .var x, h => by simpa [Expr.print] using scans_name h
  | .assign x value _, h => by
    simp only [Expr.printable, Bool.and_eq_true] at h
    simpa [Expr.print, allScan_enclose] using ⟨scans_name h.1, value.print_scans extra h.2⟩
  | .assignAt x key value _, h => by
    simp only [Expr.printable, Bool.and_eq_true] at h
    simpa [Expr.print, allScan_enclose] using
      ⟨scans_name h.1.1, key.print_scans extra h.1.2, value.print_scans extra h.2⟩
  | .ternary test yes no, h => by
    simp only [Expr.printable, Bool.and_eq_true] at h
    simpa [Expr.print, allScan_enclose] using
      ⟨test.print_scans extra h.1.1, yes.print_scans extra h.1.2, no.print_scans extra h.2⟩
  | .or left right, h | .and left right, h | .compare _ left right _, h
  | .arith _ left right _, h => by
    simp only [Expr.printable, Bool.and_eq_true] at h
    exact (allScan_printBinary extra).2 ⟨left.print_scans extra h.1, right.print_scans extra h.2⟩
  | .not operand, h => by
    simpa [Expr.print, allScan_enclose] using operand.print_scans extra h
  | .quiet operand, h => by
    simpa [Expr.print, allScan_enclose] using operand.print_scans extra h
  | .coalesce operand fallback, h => by
    simp only [Expr.printable, Bool.and_eq_true] at h
    simpa [Expr.print, allScan_enclose, allScan_encloseFallback] using
      ⟨operand.print_scans extra h.1, fallback.print_scans extra h.2⟩
  | .sign _ operand _, h => by
    simp only [Expr.printable, Bool.and_eq_true] at h
    simpa [Expr.print, allScan_enclose] using operand.print_scans extra h.1
  | .step _ true x _, h | .step _ false x _, h => by
    simpa [Expr.print] using scans_name h
  | .staticField space x _, h => by
    simp only [Expr.printable, Bool.and_eq_true] at h
    simpa [Expr.print] using ⟨namespaceLexemes_scan h.1, scans_name h.2⟩
  | .staticCall space x args _, h => by
    simp only [Expr.printable, Bool.and_eq_true] at h
    simpa [Expr.print, allScan_inParens] using
      ⟨namespaceLexemes_scan h.1.1, scans_name h.1.2, printList_scans extra args h.2⟩
  | .call x args _, h => by
    simp only [Expr.printable, Bool.and_eq_true] at h
    simpa [Expr.print, allScan_inParens] using ⟨scans_name h.1, printList_scans extra args h.2⟩
  | .index target key _, h => by
    simp only [Expr.printable, Bool.and_eq_true] at h
    simpa [Expr.print, allScan_enclose] using
      ⟨target.print_scans extra h.1, key.print_scans extra h.2⟩
  | .field target x _, h => by
    simp only [Expr.printable, Bool.and_eq_true] at h
    simpa [Expr.print, allScan_enclose] using ⟨target.print_scans extra h.1, scans_name h.2⟩
  | .method target x args _, h => by
    simp only [Expr.printable, Bool.and_eq_true] at h
    simpa [Expr.print, allScan_enclose, allScan_inParens] using
      ⟨target.print_scans extra h.1.1, scans_name h.1.2, printList_scans extra args h.2⟩
  | .map keys values, h => by
    simp only [Expr.printable, Bool.and_eq_true] at h
    simpa [Expr.print] using printEntries_scans extra values h.2 keys
  | .list items, h => by
    simpa [Expr.print] using printList_scans extra items h
  | .range first last _, h => by
    simp only [Expr.printable, Bool.and_eq_true] at h
    simpa [Expr.print, allScan_enclose] using
      ⟨first.print_scans extra h.1, last.print_scans extra h.2⟩

/-- Likewise for the expressions of a list. -/
theorem printList_scans (extra : Expr → Bool) :
    ∀ es : List Expr, allPrintable es = true → AllScan (printList extra es)
  | [], _ => allScan_nil
  | e :: es, h => by
    simp only [allPrintable, Bool.and_eq_true] at h
    simpa [printList, allScan_enclose] using
      ⟨e.print_scans extra h.1, printItems_scans extra es h.2⟩

/-- Likewise for items with commas in front of them. -/
theorem printItems_scans (extra : Expr → Bool) :
    ∀ es : List Expr, allPrintable es = true → AllScan (printItems extra es)
  | [], _ => allScan_nil
  | e :: es, h => by
    simp only [allPrintable, Bool.and_eq_true] at h
    simpa [printItems, allScan_enclose] using
      ⟨e.print_scans extra h.1, printItems_scans extra es h.2⟩

/-- Likewise for the entries of a map. -/
theorem printEntries_scans (extra : Expr → Bool) :
    ∀ values : List Expr, allPrintable values = true → ∀ keys : List String,
      AllScan (printEntries extra keys values)
  | [], _, [] | [], _, _ :: _ | _ :: _, _, [] => allScan_nil
  | value :: values, h, key :: keys => by
    simp only [allPrintable, Bool.and_eq_true] at h
    have hrest := printEntries_scans extra values h.2 keys
    have hvalue := value.print_scans extra h.1
    rw [printEntries]
    split <;> simp [allScan_enclose, hvalue, hrest]

end

/-! ### The round trip -/

/-- The text of an expression. -/
def Expr.text (extra : Expr → Bool) (e : Expr) : String := String.ofList (spaced (e.print extra))

/-- **Parsing undoes printing.** Whatever operands get parentheses that they do not need, the text
of a printable expression is parsed as this expression, up to the locations in it. -/
theorem parseExprs_print (extra : Expr → Bool) (e : Expr) (h : e.printable = true)
    (file : Option String) (row : Nat) :
    ∃ e', parseExprs file row (e.text extra) = .ok [e'] ∧ e'.unlocated = e.unlocated := by
  obtain ⟨ts, last, hscan, hts⟩ := scanTokens_spaced (e.print_scans extra h) row
  obtain ⟨e', heq, hspells⟩ := e.print_spelled extra h file ts hts
  have hassignment : Spells file (.expr .assignment e') ts :=
    hspells.loosen_to e.level_proper trivial (Nat.zero_le _)
  have htokens : scanTokens row (e.text extra).toList = .ok (ts ++ [], last) := by
    rw [Expr.text, String.toList_ofList, hscan, List.append_nil]
  exact ⟨e', parseExprs_of_spells htokens hassignment .noItems, heq⟩

/-- The right side of `??` starts with a sign, and its left side is a chain. -/
theorem parseExprs_print_fallback :
    ((Expr.coalesce (.index (.var "x") (.const (.int (-3))) .nowhere)
      (.sign .minus (.var "y") .nowhere)).text fun _ => false) = "x [ - 3 ] ?? ( - y )" ∧
    ∃ e', parseExprs none 1 ((Expr.coalesce (.index (.var "x") (.const (.int (-3))) .nowhere)
        (.sign .minus (.var "y") .nowhere)).text fun _ => false) = .ok [e'] ∧
      e'.unlocated = .coalesce (.index (.var "x") (.const (.int (-3))) .nowhere)
        (.sign .minus (.var "y") .nowhere) := by
  refine ⟨?_, parseExprs_print _ _ ?_ none 1⟩
  · cbv
  · decide

end Stencil
