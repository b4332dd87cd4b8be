/-!
# Decimal digits

The decimal text of natural numbers and integers, and the value of a text of digits.

Main statements: `ofDigits_digits`, so the text of a number reads back as that number, and
`exists_digits`, so only the text of zero begins with a zero.
-/

namespace Stencil.Decimal

/-- The value of a digit character. -/
def digitValue (c : Char) : Nat := c.toNat - 48

/-- The decimal digits of a number, without leading zeros; zero has one digit. -/
def digits (n : Nat) : List Char :=
  if n < 10 then [Nat.digitChar n] else digits (n / 10) ++ [Nat.digitChar (n % 10)]

/-- The value of digits in a base, highest first, after the value `acc`. -/
def valueFrom (base : Nat) (acc : Nat) : List Char → Nat
  | [] => acc
  | c :: cs => valueFrom base (acc * base + digitValue c) cs

/-- The value of a text of decimal digits. -/
def ofDigits (cs : List Char) : Nat := valueFrom 10 0 cs

/-- The decimal text of a natural number. -/
def ofNat (n : Nat) : String := String.ofList (digits n)

/-- The decimal text of an integer. -/
def ofInt : Int → String
  | .ofNat n => ofNat n
  | .negSucc n => "-" ++ ofNat (n + 1)

/-- The digit of a number has this number for its value. -/
theorem digitValue_digitChar {n : Nat} (h : n < 10) : digitValue (Nat.digitChar n) = n := by
  match n, h with
  | 0, _ | 1, _ | 2, _ | 3, _ | 4, _ | 5, _ | 6, _ | 7, _ | 8, _ | 9, _ => rfl

/-- Digits are read from the front, so what is read further on starts with the value by then. -/
theorem valueFrom_append (base acc : Nat) (a b : List Char) :
    valueFrom base acc (a ++ b) = valueFrom base (valueFrom base acc a) b := by
  induction a generalizing acc with
  | nil => rfl
  | cons c cs ih => exact ih _

theorem digits_of_lt {n : Nat} (h : n < 10) : digits n = [Nat.digitChar n] := by
  rw [digits]
  exact if_pos h

/-- The last digit is the remainder by ten, and those in front are the digits of the quotient. -/
theorem digits_of_le {n : Nat} (h : 10 ≤ n) :
    digits n = digits (n / 10) ++ [Nat.digitChar (n % 10)] := by
  rw [digits]
  exact if_neg (Nat.not_lt.2 h)

theorem ofDigits_singleton {n : Nat} (h : n < 10) : ofDigits [Nat.digitChar n] = n := by
  show 0 * 10 + digitValue (Nat.digitChar n) = n
  rw [digitValue_digitChar h, Nat.zero_mul, Nat.zero_add]

/-- A digit more is the value so far times ten, and its own. -/
theorem ofDigits_concat (a : List Char) {d : Nat} (h : d < 10) :
    ofDigits (a ++ [Nat.digitChar d]) = ofDigits a * 10 + d := by
  rw [ofDigits, valueFrom_append]
  show ofDigits a * 10 + digitValue (Nat.digitChar d) = _
  rw [digitValue_digitChar h]

/-- The text of a number reads back as that number. -/
theorem ofDigits_digits (n : Nat) : ofDigits (digits n) = n := by
  induction n using Nat.strongRecOn with
  | _ n ih =>
    by_cases h : n < 10
    · rw [digits_of_lt h, ofDigits_singleton h]
    · rw [digits_of_le (Nat.not_lt.1 h), ofDigits_concat _ (Nat.mod_lt n (by omega)),
        ih _ (by omega)]
      omega

theorem isDigit_digitChar {n : Nat} (h : n < 10) : (Nat.digitChar n).isDigit = true := by
  match n, h with
  | 0, _ | 1, _ | 2, _ | 3, _ | 4, _ | 5, _ | 6, _ | 7, _ | 8, _ | 9, _ => rfl

/-- The text of a number is made of digits. -/
theorem isDigit_of_mem_digits {n : Nat} {c : Char} (hc : c ∈ digits n) : c.isDigit = true := by
  induction n using Nat.strongRecOn with
  | _ n ih =>
    by_cases h : n < 10
    · rw [digits_of_lt h, List.mem_singleton] at hc
      exact hc ▸ isDigit_digitChar h
    · rw [digits_of_le (Nat.not_lt.1 h), List.mem_append, List.mem_singleton] at hc
      rcases hc with hc | rfl
      · exact ih (n / 10) (by omega) hc
      · exact isDigit_digitChar (Nat.mod_lt n (by omega))

/-- The text of a number has a digit, and begins with a zero only if that is all of it. -/
theorem exists_digits (n : Nat) : ∃ c cs, digits n = c :: cs ∧ (c = '0' → cs = []) := by
  induction n using Nat.strongRecOn with
  | _ n ih =>
    by_cases h : n < 10
    · exact ⟨_, [], digits_of_lt h, fun _ => rfl⟩
    · obtain ⟨c, cs, hcs, hzero⟩ := ih (n / 10) (by omega)
      refine ⟨c, cs ++ [Nat.digitChar (n % 10)], ?_, fun hc => ?_⟩
      · rw [digits_of_le (Nat.not_lt.1 h), hcs, List.cons_append]
      · -- A zero in front would be all of `n / 10`, which is not zero.
        have hvalue := ofDigits_digits (n / 10)
        rw [hcs, hc, hzero hc] at hvalue
        have hnone : n / 10 = 0 := hvalue.symm
        omega

end Stencil.Decimal
