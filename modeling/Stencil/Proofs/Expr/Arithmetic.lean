import Mathlib
import Stencil.Proofs.Render.Restoration

/-!
# Arithmetic on integers

Integers are computed with exactly, and then reduced to the width of the result: 32 bits if both
operands have 32 bits, and 64 bits otherwise. The reduced integer is the one in the signed range that
differs from the exact one by a multiple of `2 ^ 32` or `2 ^ 64`, which is `Int.bmod`. Nothing fails
but a division by zero.

`Value.Integer` says which integer a value stands for, and `ArithOp.exact` what an operator does on
integers without bounds; the laws of the operators are stated with these two.

Both operands are brought to the type of the result before an operator is applied. Where the
conversion fails, zeros would be used in their place, but it never fails (`convertsTo_max`).

Main definitions: `Value.Integer`, `ArithOp.exact`, `Value.ConvertsTo`.
Main statements: `Heap.arith_integers`, `integer_arithmetic_exact`.
-/

namespace Stencil

open Eval

/-! ### Integers -/

/-- How many bits a number has. -/
def NumberWidth.bits : NumberWidth → Nat
  | int | float => 32
  | long | double => 64

/-- The least integer of a type. -/
def NumberWidth.least (w : NumberWidth) : Int := -2 ^ (w.bits - 1)

/-- A value is an integer of a type. -/
inductive Value.Integer : Value → NumberWidth → Int → Prop
  | int (i : Int32) : (Value.int i).Integer .int i.toInt
  | long (l : Int64) : (Value.long l).Integer .long l.toInt

/-- What an operator does on integers without bounds. Division truncates toward zero, and a
remainder has the sign of the left operand. -/
def ArithOp.exact : ArithOp → Int → Int → Int
  | add, x, y => x + y
  | sub, x, y => x - y
  | mul, x, y => x * y
  | div, x, y => x.tdiv y
  | mod, x, y => x.tmod y

/-- An operator divides by its right operand. -/
def ArithOp.Divides (op : ArithOp) : Prop := op = .div ∨ op = .mod

/-- What a step does on integers without bounds. -/
def Step.exact : Step → Int → Int
  | up, x => x + 1
  | down, x => x - 1

variable {op : ArithOp} {a b v : Value} {w w' : NumberWidth} {x y : Int}

/-- A type and an integer of it determine the value. -/
theorem Value.Integer.eq {v' : Value} (h : v.Integer w x) (h' : v'.Integer w x) : v = v' := by
  cases h with
  | int i =>
    generalize hx : i.toInt = x at h'
    cases h' with
    | int j => rw [Int32.toInt_inj.mp hx]
  | long k =>
    generalize hx : k.toInt = x at h'
    cases h' with
    | long l => rw [Int64.toInt_inj.mp hx]

/-! ### Operators on words -/

namespace ArithOp

/-- On 32 bits nothing but a division by zero fails. -/
theorem onInt_eq_none {i j : Int32} (hop : op.Divides) (hj : j.toInt = 0) :
    op.onInt i j = none := by
  obtain rfl : j = 0 := Int32.toInt_inj.mp hj
  rcases hop with rfl | rfl <;> rfl

/-- An operator on 32 bits gives the exact integer, reduced. -/
theorem onInt_eq_some {i j : Int32} (h : ¬(op.Divides ∧ j.toInt = 0)) :
    ∃ k, op.onInt i j = some k ∧ k.toInt = (op.exact i.toInt j.toInt).bmod (2 ^ 32) := by
  have hzero (hop : op.Divides) : ¬ j = 0 := by
    rintro rfl
    exact h ⟨hop, rfl⟩
  cases op with
  | add => exact ⟨i + j, rfl, i.toInt_add j⟩
  | sub => exact ⟨i - j, rfl, i.toInt_sub j⟩
  | mul => exact ⟨i * j, rfl, i.toInt_mul j⟩
  | div => exact ⟨i / j, if_neg (hzero (.inl rfl)), i.toInt_div j⟩
  | mod =>
    -- A remainder is in range already.
    have hrange : (i.toInt.tmod j.toInt).bmod (2 ^ 32) = i.toInt.tmod j.toInt := by
      rw [← i.toInt_mod j]
      exact Int32.toInt_bmod_size _
    exact ⟨i % j, if_neg (hzero (.inr rfl)), (i.toInt_mod j).trans hrange.symm⟩

/-- On 64 bits nothing but a division by zero fails. -/
theorem onLong_eq_none {k l : Int64} (hop : op.Divides) (hl : l.toInt = 0) :
    op.onLong k l = none := by
  obtain rfl : l = 0 := Int64.toInt_inj.mp hl
  rcases hop with rfl | rfl <;> rfl

/-- An operator on 64 bits gives the exact integer, reduced. -/
theorem onLong_eq_some {k l : Int64} (h : ¬(op.Divides ∧ l.toInt = 0)) :
    ∃ n, op.onLong k l = some n ∧ n.toInt = (op.exact k.toInt l.toInt).bmod (2 ^ 64) := by
  have hzero (hop : op.Divides) : ¬ l = 0 := by
    rintro rfl
    exact h ⟨hop, rfl⟩
  cases op with
  | add => exact ⟨k + l, rfl, k.toInt_add l⟩
  | sub => exact ⟨k - l, rfl, k.toInt_sub l⟩
  | mul => exact ⟨k * l, rfl, k.toInt_mul l⟩
  | div => exact ⟨k / l, if_neg (hzero (.inl rfl)), k.toInt_div l⟩
  -- a remainder is in range as it is, and the reduction does nothing
  | mod =>
    have hrange : (k.toInt.tmod l.toInt).bmod (2 ^ 64) = k.toInt.tmod l.toInt := by
      rw [← k.toInt_mod l]
      exact Int64.toInt_bmod_size _
    exact ⟨k % l, if_neg (hzero (.inr rfl)), (k.toInt_mod l).trans hrange.symm⟩

end ArithOp

/-! ### Conversions -/

/-- A value can be brought to a type of numbers. -/
def Value.ConvertsTo (v : Value) : NumberWidth → Prop
  | .int => ∃ i, v.asInt? = some i
  | .long => ∃ l, v.asLong? = some l
  | .float | .double => ∃ d, v.asDouble? = some d

/-- **Operands always convert** to the wider of their types, so that no zero ever stands in for
one. -/
theorem convertsTo_max (ha : a.width? = some w) (hb : b.width? = some w') :
    a.ConvertsTo (w.max w') ∧ b.ConvertsTo (w.max w') := by
  cases a <;> cases ha <;> cases b <;> cases hb <;> exact ⟨⟨_, rfl⟩, ⟨_, rfl⟩⟩

/-- The width of an integer is read off its value. -/
theorem Value.Integer.width? (h : v.Integer w x) : v.width? = some w := by
  cases h <;> rfl

/-- An integer of any type as one of 64 bits. -/
theorem Value.Integer.asLong? (h : v.Integer w x) : ∃ l, v.asLong? = some l ∧ l.toInt = x := by
  cases h with
  | int i => exact ⟨i.toInt64, rfl, i.toInt_toInt64⟩
  | long l => exact ⟨l, rfl, rfl⟩

/-- The type that the result of an operator on integers has. -/
def NumberWidth.wider (w w' : NumberWidth) : NumberWidth :=
  if w = .int ∧ w' = .int then .int else .long

/-- Two integers are brought to the type of the result as they are. -/
theorem NumberPair.of?_integers (ha : a.Integer w x) (hb : b.Integer w' y) :
    (w.wider w' = .int ∧ ∃ i j, of? a b = some (.int i j) ∧ i.toInt = x ∧ j.toInt = y) ∨
      (w.wider w' = .long ∧ ∃ k l, of? a b = some (.long k l) ∧ k.toInt = x ∧ l.toInt = y) := by
  cases ha with
  | int i =>
    cases hb with
    | int j => exact .inl ⟨rfl, i, j, rfl, rfl, rfl⟩
    | long l => exact .inr ⟨rfl, i.toInt64, l, rfl, i.toInt_toInt64, rfl⟩
  | long k =>
    cases hb with
    | int j => exact .inr ⟨rfl, k, j.toInt64, rfl, rfl, j.toInt_toInt64⟩
    | long l => exact .inr ⟨rfl, k, l, rfl, rfl, rfl⟩

/-! ### Operators on values -/

theorem ArithOp.joins_integers (op : ArithOp) (ha : a.Integer w x) (hb : b.Integer w' y) :
    op.joins a b = false := by
  cases ha <;> cases hb <;> rfl

/-- **Operators on integers** are exact up to the reduction to the type of the result, and fail for
a division by zero only. -/
theorem Heap.arith_integers (h : Heap) (op : ArithOp) (ha : a.Integer w x) (hb : b.Integer w' y) :
    (op.Divides ∧ y = 0 → h.arith op a b = .error .divisionByZero) ∧
      (¬(op.Divides ∧ y = 0) → ∃ v, h.arith op a b = .ok v ∧
        v.Integer (w.wider w') ((op.exact x y).bmod (2 ^ (w.wider w').bits))) := by
  have hnumbers : ¬ op.joins a b = true := by
    rw [op.joins_integers ha hb]
    exact Bool.false_ne_true
  unfold Heap.arith
  rw [if_neg hnumbers]
  -- both operands are brought to the wider width, so there is an operator on 32 and one on 64 bits
  rcases NumberPair.of?_integers ha hb with
    ⟨hwide, i, j, hpair, rfl, rfl⟩ | ⟨hwide, k, l, hpair, rfl, rfl⟩
  · rw [hpair, hwide]
    dsimp only [ArithOp.onPair]
    refine ⟨fun ⟨hop, hzero⟩ => ?_, fun hsome => ?_⟩
    · rw [ArithOp.onInt_eq_none hop hzero]
      rfl
    · obtain ⟨n, hn, hexact⟩ := ArithOp.onInt_eq_some (i := i) hsome
      rw [hn]
      exact ⟨.int n, rfl, hexact ▸ .int n⟩
  · rw [hpair, hwide]
    dsimp only [ArithOp.onPair]
    refine ⟨fun ⟨hop, hzero⟩ => ?_, fun hsome => ?_⟩
    · rw [ArithOp.onLong_eq_none hop hzero]
      rfl
    · obtain ⟨n, hn, hexact⟩ := ArithOp.onLong_eq_some (k := k) hsome
      rw [hn]
      exact ⟨.long n, rfl, hexact ▸ .long n⟩

/-- A minus sign before an integer subtracts it from zero, in its own type. -/
theorem Value.signed_minus_integer (ha : a.Integer w x) :
    ∃ v, a.signed .minus = .ok v ∧ v.Integer w ((0 - x).bmod (2 ^ w.bits)) := by
  cases ha with
  | int i =>
    have hneg : (-i).toInt = (0 - i.toInt).bmod (2 ^ 32) := by rw [Int.zero_sub, i.toInt_neg]
    exact ⟨.int (-i), rfl, hneg ▸ .int (-i)⟩
  | long l =>
    have hneg : (-l).toInt = (0 - l.toInt).bmod (2 ^ 64) := by rw [Int.zero_sub, l.toInt_neg]
    exact ⟨.long (-l), rfl, hneg ▸ .long (-l)⟩

/-- A step adds or subtracts one, in the type of the integer. -/
theorem Heap.arith_step (h : Heap) (step : Step) (ha : a.Integer w x) :
    ∃ v, h.arith step.op a (.int 1) = .ok v ∧
      v.Integer w ((step.exact x).bmod (2 ^ w.bits)) := by
  have hone : (Value.int 1).Integer .int 1 := .int 1
  have hwide : w.wider .int = w := by cases ha <;> rfl
  have hsteps : ¬(step.op.Divides ∧ (1 : Int) = 0) := fun hzero => absurd hzero.2 (by decide)
  obtain ⟨v, hv, hinteger⟩ := (h.arith_integers step.op ha hone).2 hsteps
  rw [hwide] at hinteger
  cases step <;> exact ⟨v, hv, hinteger⟩

/-! ### The least integer -/

/-- The least integer divided by minus one is too large by one, and is reduced to itself. -/
theorem bmod_least_tdiv (hw : w = .int ∨ w = .long) :
    (w.least.tdiv (-1)).bmod (2 ^ w.bits) = w.least := by
  rcases hw with rfl | rfl <;> decide

/-- It has no remainder. -/
theorem bmod_least_tmod (hw : w = .int ∨ w = .long) :
    (w.least.tmod (-1)).bmod (2 ^ w.bits) = 0 := by
  rcases hw with rfl | rfl <;> decide

/-! ### Expressions -/

variable {host : Host} {scope : ScopeId} {left right : Expr} {m m₁ m₂ : Memory}

namespace Expr

/-- An operator is applied to the values of its operands, in the heap that these leave. -/
theorem eval_arith (hleft : (left.eval host scope).runOn m = (.ok a, m₁))
    (hright : (right.eval host scope).runOn m₁ = (.ok b, m₂)) (op : ArithOp)
    (location : Location) :
    ((left.arith op right location).eval host scope).runOn m =
      (ofExcept location (m₂.heap.arith op a b)).runOn m₂ := by
  rw [eval, runOn_bind, hleft]
  dsimp only
  rw [runOn_bind, hright]
  rfl

/-- A sign is put before the value of its operand. -/
theorem eval_sign (hleft : (left.eval host scope).runOn m = (.ok a, m₁)) (s : Sign)
    (location : Location) :
    ((left.sign s location).eval host scope).runOn m =
      (ofExcept location (a.signed s)).runOn m₁ := by
  rw [eval, runOn_bind, hleft]

/-- A step assigns to its variable, and its value is the new one or the old one. -/
theorem eval_step {step : Step} {name : String} (hnumber : a.isNumber = true)
    (hname : m.scopes.get host.objects scope name = a)
    (hstep : m.heap.arith step.op a (.int 1) = .ok v) (early : Bool) (location : Location) :
    ((Expr.step step early name location).eval host scope).runOn m =
      (.ok (if early then v else a),
        { m with scopes := m.scopes.set m.control.policy scope name v }) := by
  have hlookup : (lookup host scope name).runOn m = (.ok a, m) := by
    rw [← hname]
    rfl
  have hheap : heap.runOn m = (.ok m.heap, m) := rfl
  rw [eval, Host.step, runOn_bind, hlookup]
  dsimp only
  rw [if_pos hnumber, runOn_bind, hheap]
  dsimp only
  rw [hstep]
  rfl

end Expr

theorem Value.Integer.isNumber (h : v.Integer w x) : v.isNumber = true := by
  cases h <;> rfl

/-- **Integer arithmetic is exact two's complement.** Take two expressions that evaluate, one after
the other, to integers `x` and `y`. An operator on them gives an int if both are ints and a long
otherwise, and its value is the exact integer, reduced to the range of this type; so the least integer
divided by `-1` is itself, without remainder. It fails exactly where it divides by zero. A minus sign
gives `0 - x`, and a step `x + 1` or `x - 1`, in the type of `x`. The conversions to the type of the
result, whatever the types of the two numbers are, never fail, so no operand is ever replaced. -/
theorem integer_arithmetic_exact (hleft : (left.eval host scope).runOn m = (.ok a, m₁))
    (hright : (right.eval host scope).runOn m₁ = (.ok b, m₂)) (ha : a.Integer w x)
    (hb : b.Integer w' y) :
    let wide : NumberWidth := if w = .int ∧ w' = .int then .int else .long
    (∀ (op : ArithOp) (location : Location),
      let run := ((left.arith op right location).eval host scope).runOn m
      ((∃ error, run.1 = .error error) ↔ op.Divides ∧ y = 0) ∧
      (op.Divides ∧ y = 0 → run = (.error (.template .divisionByZero location), m₂)) ∧
      (¬(op.Divides ∧ y = 0) →
        ∃ v, run = (.ok v, m₂) ∧ v.Integer wide ((op.exact x y).bmod (2 ^ wide.bits)))) ∧
    (∀ location : Location, x = wide.least → y = -1 →
      (∃ v, ((left.arith .div right location).eval host scope).runOn m = (.ok v, m₂) ∧
        v.Integer wide wide.least) ∧
      ∃ v, ((left.arith .mod right location).eval host scope).runOn m = (.ok v, m₂) ∧
        v.Integer wide 0) ∧
    (∀ location : Location, ∃ v,
      ((left.sign .minus location).eval host scope).runOn m = (.ok v, m₁) ∧
        v.Integer w ((0 - x).bmod (2 ^ w.bits))) ∧
    (∀ (step : Step) (early : Bool) (name : String) (location : Location) (μ : Memory),
      μ.scopes.get host.objects scope name = a → ∃ v,
        ((Expr.step step early name location).eval host scope).runOn μ =
          (.ok (if early then v else a),
            { μ with scopes := μ.scopes.set μ.control.policy scope name v }) ∧
        v.Integer w ((step.exact x).bmod (2 ^ w.bits))) ∧
    (∀ (c d : Value) (u u' : NumberWidth), c.width? = some u → d.width? = some u' →
      c.ConvertsTo (u.max u') ∧ d.ConvertsTo (u.max u')) := by
  intro wide
  -- An operator goes on with what it does on the two values.
  have hfails (op : ArithOp) (location : Location) (hzero : op.Divides ∧ y = 0) :
      ((left.arith op right location).eval host scope).runOn m =
        (.error (.template .divisionByZero location), m₂) := by
    rw [Expr.eval_arith hleft hright, (m₂.heap.arith_integers op ha hb).1 hzero]
    rfl
  have hgives (op : ArithOp) (location : Location) (hsome : ¬(op.Divides ∧ y = 0)) :
      ∃ v, ((left.arith op right location).eval host scope).runOn m = (.ok v, m₂) ∧
        v.Integer wide ((op.exact x y).bmod (2 ^ wide.bits)) := by
    obtain ⟨v, hv, hinteger⟩ := (m₂.heap.arith_integers op ha hb).2 hsome
    refine ⟨v, ?_, hinteger⟩
    rw [Expr.eval_arith hleft hright, hv]
    rfl
  refine ⟨fun op location => ⟨⟨?_, ?_⟩, hfails op location, hgives op location⟩, ?_, ?_, ?_, ?_⟩
  -- an operator that gives a value raises nothing
  · rintro ⟨error, herror⟩
    by_contra hsome
    obtain ⟨v, hv, -⟩ := hgives op location hsome
    rw [hv] at herror
    cases herror
  · intro hzero
    exact ⟨_, congrArg Prod.fst (hfails op location hzero)⟩
  · intro location hx hy
    -- the quotient is reduced to the width of both, which has a least integer
    have hwide : wide = .int ∨ wide = .long := by
      by_cases hints : w = .int ∧ w' = .int
      · exact .inl (if_pos hints)
      · exact .inr (if_neg hints)
    -- the divisor is minus one, so nothing is divided by zero
    have hsome (op : ArithOp) : ¬(op.Divides ∧ y = 0) := fun hzero => by omega
    obtain ⟨q, hq, hquotient⟩ := hgives .div location (hsome .div)
    obtain ⟨r, hr, hremainder⟩ := hgives .mod location (hsome .mod)
    rw [ArithOp.exact, hx, hy, bmod_least_tdiv hwide] at hquotient
    rw [ArithOp.exact, hx, hy, bmod_least_tmod hwide] at hremainder
    exact ⟨⟨q, hq, hquotient⟩, r, hr, hremainder⟩
  · intro location
    obtain ⟨v, hv, hinteger⟩ := Value.signed_minus_integer ha
    refine ⟨v, ?_, hinteger⟩
    rw [Expr.eval_sign hleft, hv]
    rfl
  · intro step early name location μ hname
    obtain ⟨v, hv, hinteger⟩ := μ.heap.arith_step step ha
    exact ⟨v, Expr.eval_step ha.isNumber hname hv early location, hinteger⟩
  · intro c d u u' hc hd
    exact convertsTo_max hc hd

/-- The least int divided by minus one, negated, and counted down from. -/
theorem integer_arithmetic_exact_least :
    let least : Expr := .const (.int Int32.minValue)
    let m : Memory := ⟨{}, .ofData (.ofList [("x", .int Int32.minValue)]), {}⟩
    let run (e : Expr) := ((e.eval {} 0).runOn m).1
    run (least.arith .div (.const (.int (-1))) default) = .ok (.int Int32.minValue) ∧
      run (least.arith .mod (.const (.int (-1))) default) = .ok (.int 0) ∧
      run (least.sign .minus default) = .ok (.int Int32.minValue) ∧
      run (.step .down true "x" default) = .ok (.int Int32.maxValue) := by
  intro least m run
  have hleast : (Value.int Int32.minValue).Integer .int NumberWidth.int.least := .int _
  have hminus : (Value.int (-1)).Integer .int (-1) := .int (-1)
  have hvalue : m.scopes.get .empty 0 "x" = .int Int32.minValue := by
    simp only [m]
    cbv
  obtain ⟨-, hdivided, hsigned, hstepped, -⟩ := @integer_arithmetic_exact (.int Int32.minValue)
    (.int (-1)) .int .int NumberWidth.int.least (-1) {} 0 least (.const (.int (-1))) m m m rfl rfl
    hleast hminus
  obtain ⟨⟨q, hq, hquotient⟩, r, hr, hremainder⟩ := hdivided default rfl rfl
  obtain ⟨n, hn, hnegated⟩ := hsigned default
  obtain ⟨d, hd, hdown⟩ := hstepped .down true "x" default m hvalue
  obtain rfl : q = .int Int32.minValue := hquotient.eq hleast
  obtain rfl : r = .int 0 := hremainder.eq (.int 0)
  obtain rfl : n = .int Int32.minValue := hnegated.eq hleast
  obtain rfl : d = .int Int32.maxValue := hdown.eq (.int Int32.maxValue)
  exact ⟨congrArg Prod.fst hq, congrArg Prod.fst hr, congrArg Prod.fst hn, congrArg Prod.fst hd⟩

end Stencil
