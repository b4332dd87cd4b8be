import Stencil.Proofs.Render.Restoration

/-!
# Forgiving reads of null

While reads of null are forgiven, an evaluation can go on where it would have failed. It never does
anything else than it would have done: where no read of null comes up, nobody asks the flag. So an
evaluation that succeeds without forgiveness succeeds with it, with the same value, the same
variables and the same heap (`Eval.Forgives`).

The left operand of `??` is evaluated with reads of null forgiven, and the flag is put back behind
it. An operand that has a value of its own is therefore the value of the whole, with its effects and
with no others. That its fallback is left alone is a matter of the record: the moments of the whole
are those of the operand, and its own end.

Main definition: `Eval.Forgives`. Main statements: `Expr.eval_forgives`,
`null_safety_only_rescues`.
-/

namespace Stencil

open Eval

variable {α β : Type}

/-- A memory in which reads of null are forgiven. -/
def Memory.forgiving (m : Memory) : Memory :=
  { m with control := { m.control with nullSafe := true } }

/-- What succeeds succeeds alike where reads of null are forgiven. -/
def Eval.Forgives (act : Eval α) : Prop :=
  ∀ (m after : Memory) (a : α), act.runOn m = (.ok a, after) →
    act.runOn m.forgiving = (.ok a, after.forgiving)

namespace Eval.Forgives

/-- What forgives goes on with what forgives. -/
theorem bind {x : Eval α} {f : α → Eval β} (hx : Forgives x) (hf : ∀ a, Forgives (f a)) :
    Forgives (x >>= f) := by
  intro m after b h
  rw [runOn_bind] at h ⊢
  rcases hrun : x.runOn m with ⟨_ | a, mid⟩
  · rw [hrun] at h
    cases h
  · rw [hrun] at h
    rw [hx m mid a hrun]
    exact hf a mid after b h

/-- A value forgives. -/
theorem pure (a : α) : Forgives (pure a) := by
  intro m after b h
  cases h
  rfl

/-- So does a failure, for nothing is asked of what fails. -/
theorem throw (error : Error) : Forgives (throw error : Eval α) := nofun

/-- So does a result that may be a fault. -/
theorem ofExcept (location : Location) (result : Except Fault α) :
    Forgives (ofExcept location result) := by
  cases result with
  | ok a => exact pure a
  | error fault => exact throw _

/-- A look at the heap forgives. -/
theorem heap : Forgives heap := by
  intro m after h hrun
  cases hrun
  rfl

/-- So does a change of the heap. -/
theorem onHeap (f : Heap → α × Heap) : Forgives (onHeap f) := by
  intro m after a h
  cases h
  rfl

/-- So does the read of a variable. -/
theorem lookup (host : Host) (scope : ScopeId) (name : String) :
    Forgives (lookup host scope name) := by
  intro m after v h
  cases h
  rfl

/-- So does an assignment. -/
theorem assign (scope : ScopeId) (name : String) (value : Value) :
    Forgives (assign scope name value) := by
  intro m after u h
  cases h
  rfl

/-- So does an operation of the host. -/
theorem runOperation (operation : Operation) (args : List Value) (callee : String)
    (location : Location) : Forgives (runOperation operation args callee location) := by
  refine bind (onHeap _) fun result => ?_
  split
  · exact pure _
  · exact throw _

/-- So does a method. -/
theorem callMethod (host : Host) (target : Value) (name : String) (args : List Value)
    (location : Location) : Forgives (host.callMethod target name args location) := by
  refine bind (onHeap _) fun result => ?_
  split
  · exact pure _
  · exact throw _
  · exact throw _

/-- Inside of the left operand of `??` reads of null are forgiven either way, so both runs are the
run of the operand from `m.forgiving`. -/
theorem withNullSafe (act : Eval α) : Forgives (withNullSafe act) := by
  intro m after a h
  have hresult : (act.runOn m.forgiving).1 = .ok a := congrArg Prod.fst h
  have hafter : ({ (act.runOn m.forgiving).2 with
      control := { (act.runOn m.forgiving).2.control with nullSafe := m.control.nullSafe } } :
        Memory) = after := congrArg Prod.snd h
  rw [← hafter]
  exact Prod.ext hresult rfl

/-- Where the flag decides nothing but whether to fail, what succeeds succeeds alike. -/
theorem flagged {f : Heap → Bool → Eval α} (hf : ∀ h, Forgives (f h true))
    (hflag : ∀ h, f h false = f h true ∨ ∃ error, f h false = MonadExcept.throw error) :
    Forgives (get >>= fun m => f m.heap m.control.nullSafe) := by
  intro m after a hrun
  change (f m.heap m.control.nullSafe).runOn m = _ at hrun
  change (f m.heap true).runOn m.forgiving = _
  apply hf
  -- with the flag set there is nothing to compare, and without it the act has not failed
  cases hnull : m.control.nullSafe with
  | true => rwa [hnull] at hrun
  | false =>
    rw [hnull] at hrun
    obtain hsame | ⟨error, hfails⟩ := hflag m.heap
    · rwa [hsame] at hrun
    · rw [hfails] at hrun
      cases hrun

/-- The read of a key forgives: the flag turns a failure into null at most. -/
theorem readIndex (target key : Value) (location : Location) :
    Forgives (get >>= fun m =>
      Eval.ofExcept location (m.heap.readIndex m.control.nullSafe target key)) := by
  refine flagged (f := fun h nullSafe => Eval.ofExcept location (h.readIndex nullSafe target key))
    (fun h => ofExcept location _) fun h => ?_
  cases target with
  | null => exact .inr ⟨_, rfl⟩
  | _ => exact .inl rfl

/-- So does the read of a field. -/
theorem readField (target : Value) (name : String) (location : Location) :
    Forgives (get >>= fun m =>
      Eval.ofExcept location (m.heap.readField m.control.nullSafe target name)) := by
  refine flagged (f := fun h nullSafe => Eval.ofExcept location (h.readField nullSafe target name))
    (fun h => ofExcept location _) fun h => ?_
  unfold Heap.readField
  by_cases hnull : target.isNull
  · rw [if_pos hnull, if_pos hnull]
    exact .inr ⟨_, rfl⟩
  · rw [if_neg hnull, if_neg hnull]
    exact .inl rfl

/-- So does a method of null. -/
theorem methodOfNull (name : String) (location : Location) :
    Forgives (get >>= fun m => if m.control.nullSafe then Pure.pure Value.null
      else raise (.methodOfNull name) location) :=
  flagged (f := fun _ nullSafe => if nullSafe then Pure.pure Value.null
      else raise (.methodOfNull name) location)
    (fun _ => pure _) fun _ => .inr ⟨.template (.methodOfNull name) location, rfl⟩

/-- The rules of evaluations: nothing is asked of values, and of what stands in the expression. -/
theorem logic (host : Host) (scope : ScopeId) :
    EvalLogic host scope scope {} (fun _ _ => True) fun _ _ _ y => y.Forgives where
  -- of values, names and locations nothing is asked
  mono _ _ := ⟨⟩
  const _ := ⟨⟩
  computed _ := ⟨⟩
  pure a _ := pure a
  bind {_ _ n} _ _ _ _ _ _ hx hf := bind hx fun a => hf a n (Nat.le_refl n) fun _ _ => ⟨⟩
  raise _ _ := throw _
  heap := heap
  lookup _ := lookup host scope _
  assign name _ := assign scope name _
  withNullSafe _ := withNullSafe _
  noting h := h
  readIndex target key _ := readIndex target key _
  readField target name _ := readField target name _
  methodOfNull name _ := methodOfNull name _
  writeIndex _ _ _ _ := onHeap _
  newMap _ _ := onHeap _
  newList _ := onHeap _
  member _ := pure _
  operation callee _ _ _ := runOperation _ _ callee _
  callMethod name _ _ _ := callMethod host _ name _ _

end Eval.Forgives

/-! ### Evaluations -/

namespace Expr

/-- What an expression evaluates to, it evaluates to where reads of null are forgiven. -/
theorem eval_forgives (host : Host) (scope : ScopeId) (e : Expr) :
    (e.eval host scope).Forgives :=
  (Eval.Forgives.logic host scope).eval e ⟨fun _ _ => ⟨⟩, fun _ _ => ⟨⟩, fun _ _ => ⟨⟩⟩ 0

/-- Behind an evaluation the flag is what it was before. -/
theorem nullSafe_of_eval {host : Host} {scope : ScopeId} {e : Expr} {m after : Memory}
    {result : Except Error Value} (h : (e.eval host scope).runOn m = (result, after)) :
    after.control.nullSafe = m.control.nullSafe := by
  have hcontrol := (e.eval_restores host scope m).2
  rw [h] at hcontrol
  rw [hcontrol]

/-- The left operand of `??` evaluates as it does on its own, if that succeeds. -/
theorem withNullSafe_of_eval {host : Host} {scope : ScopeId} {e : Expr} {m after : Memory}
    {v : Value} (h : (e.eval host scope).runOn m = (.ok v, after)) :
    (withNullSafe (e.eval host scope)).runOn m = (.ok v, after) := by
  have hforgiving := e.eval_forgives host scope m after v h
  have hrun : (withNullSafe (e.eval host scope)).runOn m =
      (((e.eval host scope).runOn m.forgiving).1,
        { ((e.eval host scope).runOn m.forgiving).2 with
          control := { ((e.eval host scope).runOn m.forgiving).2.control with
            nullSafe := m.control.nullSafe } }) := rfl
  rw [hrun, hforgiving, ← nullSafe_of_eval h]
  rfl

/-- A left operand of `??` with a value of its own gives the value and the memory of the whole. -/
theorem eval_coalesce_of_eval {host : Host} {scope : ScopeId} {e : Expr} {m after : Memory}
    {v : Value} (h : (e.eval host scope).runOn m = (.ok v, after)) (hv : v.isNull = false)
    (fallback : Expr) : ((e.coalesce fallback).eval host scope).runOn m = (.ok v, after) := by
  unfold eval
  rw [runOn_bind, withNullSafe_of_eval h]
  dsimp only
  rw [hv]
  rfl

/-- A left operand of `??` that is null, where reads of null are forgiven, leaves the value to the
right one. -/
theorem eval_coalesce_of_null {host : Host} {scope : ScopeId} {e : Expr} {m after : Memory}
    (h : (withNullSafe (e.eval host scope)).runOn m = (.ok .null, after)) (fallback : Expr) :
    ((e.coalesce fallback).eval host scope).runOn m = (fallback.eval host scope).runOn after := by
  rw [eval, runOn_bind, h]
  rfl

/-- Nothing is noted of a `??` but what its left operand does, and its own end. -/
theorem record_coalesce_of_eval {host : Host} {scope : ScopeId} {e : Expr} {m after : Memory}
    {v : Value} (h : (e.eval host scope).runOn m = (.ok v, after)) (hv : v.isNull = false)
    (fallback : Expr) :
    (Recorded.eval host scope (e.coalesce fallback)).record m =
      (Recorded.eval host scope e).record m.forgiving ++
        [.evaluated scope (e.coalesce fallback) m (.ok v) after] := by
  have twin (e' : Expr) : (Recorded.eval host scope e').Faithful { host } (e'.eval host scope) :=
    (Recorded.Faithful.evalComposes { host } scope).eval e'
  have hoperand : (Recorded.withNullSafe (Recorded.eval host scope e)).outcome m =
      (.ok v, after) :=
    ((Recorded.Faithful.evalComposes { host } scope).withNullSafe (twin e)).outcome m |>.trans
      (withNullSafe_of_eval h)
  have hwhole : (Recorded.eval host scope (e.coalesce fallback)).outcome m = (.ok v, after) :=
    ((twin _).outcome m).trans (eval_coalesce_of_eval h hv fallback)
  let steps : Recorded Memory Error Value := do
    let v ← (Recorded.eval host scope e).withNullSafe
    if v.isNull then Recorded.eval host scope fallback else return v
  have hsteps : Recorded.eval host scope (e.coalesce fallback) =
      .noting (.evaluated scope (e.coalesce fallback)) steps := by
    rw [Recorded.eval]
  -- behind the operand the test for null goes against the fallback, and nothing more is noted
  have hrecord : steps.record m = (Recorded.eval host scope e).record m.forgiving := by
    rw [Recorded.record_bind, hoperand]
    dsimp only
    rw [hv]
    exact List.append_nil _
  rw [hsteps] at hwhole ⊢
  change steps.outcome m = _ at hwhole
  change steps.record m ++ [.evaluated _ _ m (steps.outcome m).1 (steps.outcome m).2] = _
  rw [hrecord, hwhole]

end Expr

/-- **Forgiveness only rescues failures.** Take an expression that evaluates to a value, in any frame
and any memory. Where reads of null are forgiven it evaluates to the same value, and leaves the same
variables and the same heap. So if the value is not null, then it is also the value of the expression
with any fallback behind `??`, with the same effects; and the fallback is not evaluated: the moments
of the whole are those of its left operand, and its own end. -/
theorem null_safety_only_rescues (host : Host) (scope : ScopeId) (e : Expr) {m after : Memory}
    {v : Value} (h : (e.eval host scope).runOn m = (.ok v, after)) :
    (e.eval host scope).runOn m.forgiving = (.ok v, after.forgiving) ∧
    (v.isNull = false → ∀ fallback : Expr,
      ((e.coalesce fallback).eval host scope).runOn m = (.ok v, after) ∧
      (Recorded.eval host scope (e.coalesce fallback)).record m =
        (Recorded.eval host scope e).record m.forgiving ++
          [.evaluated scope (e.coalesce fallback) m (.ok v) after]) :=
  ⟨e.eval_forgives host scope m after v h, fun hv fallback =>
    ⟨Expr.eval_coalesce_of_eval h hv fallback, Expr.record_coalesce_of_eval h hv fallback⟩⟩

/-- An assignment has a value and an effect of its own, so a fallback that would fail is left
alone. -/
theorem null_safety_only_rescues_assignment :
    let e : Expr := .assign "x" (.const (.int 3)) default
    let fallback : Expr := .field (.const .null) "y" default
    let m : Memory := ⟨{}, .ofData .empty, {}⟩
    let run := (e.eval {} 0).runOn m
    run.1 = .ok (.int 3) ∧ run.2.scopes.get .empty 0 "x" = .int 3 ∧
      ((fallback.eval {} 0).runOn m).1 = .error (.template (.fieldOfNull "y") default) ∧
      ((e.coalesce fallback).eval {} 0).runOn m = run := by
  intro e fallback m run
  have hrun : run = (.ok (.int 3), run.2) := rfl
  obtain ⟨-, hcoalesce⟩ := null_safety_only_rescues {} 0 e hrun
  exact ⟨rfl, by with_unfolding_all rfl, rfl, (hcoalesce rfl fallback).1⟩

end Stencil
