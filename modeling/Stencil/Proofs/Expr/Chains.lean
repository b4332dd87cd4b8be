import Stencil.Proofs.Expr.Locations

/-!
# Chains of accesses

A chain is a variable with accesses behind it: fields, indexes with constant keys, and calls of
methods. Each access works on the value that is there by then, so the run of a chain is the run of
its variable followed by the accesses one after the other (`Expr.eval_chain`).

Where reads of null are forgiven, an access makes null of null and does nothing else: it reads
nothing, evaluates no argument and calls no method. A null in the middle of a chain is therefore
handed on to the end, and a `??` behind the chain selects its default. Where they are not forgiven,
the access that meets the null fails.

Main definitions: `Access`, `Expr.chain`, `Access.apply`.
Main statements: `Expr.eval_chain`, `Access.foldlM_apply_null`, `null_in_chain_selects_default`.
-/

namespace Stencil

open Eval

/-- An access to a value. -/
inductive Access where
  | field (name : String) (location : Location)
  | index (key : Value) (location : Location)
  | method (name : String) (args : List Expr) (location : Location)

namespace Access

/-- The expression that makes an access to what another expression gives. -/
def of (target : Expr) : Access → Expr
  | field name location => .field target name location
  | index key location => .index target (.const key) location
  | method name args location => .method target name args location

/-- The value that an access makes of another one. -/
def apply (host : Host) (scope : ScopeId) (target : Value) : Access → Eval Value
  | field name location => do
    let m ← get
    Eval.ofExcept location (m.heap.readField m.control.nullSafe target name)
  | index key location => do
    let m ← get
    Eval.ofExcept location (m.heap.readIndex m.control.nullSafe target key)
  | method name args location => do
    if target.isNull then
      if (← get).control.nullSafe then return .null else raise (.methodOfNull name) location
    else
      let values ← Expr.evalAll host scope args
      host.callMethod target name values location

/-- An access behind a target is evaluated by evaluating the target and reading from its value. -/
theorem eval_of (host : Host) (scope : ScopeId) (target : Expr) (access : Access) :
    (access.of target).eval host scope =
      target.eval host scope >>= fun t => access.apply host scope t := by
  cases access <;> rfl

/-! ### Accesses to null -/

/-- The error of an access to null. -/
def nullError (h : Heap) : Access → Error
  | field name location => .template (.fieldOfNull name) location
  | index key location => .template (.indexOfNull (h.text key)) location
  | method name _ location => .template (.methodOfNull name) location

/-- An access to null does nothing but ask whether such reads are forgiven. -/
theorem apply_null (host : Host) (scope : ScopeId) (access : Access) (m : Memory) :
    (access.apply host scope .null).runOn m =
      (if m.control.nullSafe then .ok .null else .error (access.nullError m.heap), m) := by
  cases access with
  -- the flag decides between null and an error, whatever the access
  | field name location =>
    change (Eval.ofExcept location (m.heap.readField m.control.nullSafe .null name)).runOn m = _
    cases m.control.nullSafe <;> rfl
  | index key location =>
    change (Eval.ofExcept location (m.heap.readIndex m.control.nullSafe .null key)).runOn m = _
    cases m.control.nullSafe <;> rfl
  | method name args location =>
    change (if m.control.nullSafe then Pure.pure Value.null
      else raise (.methodOfNull name) location : Eval Value).runOn m = _
    cases m.control.nullSafe <;> rfl

/-- Null goes through any number of accesses and leaves the memory alone, on every host. -/
theorem foldlM_apply_null (host : Host) (scope : ScopeId) (accesses : List Access) {m : Memory}
    (hnull : m.control.nullSafe = true) :
    (accesses.foldlM (apply host scope) .null).runOn m = (.ok .null, m) := by
  induction accesses with
  | nil => rfl
  | cons access accesses ih =>
    rw [List.foldlM_cons, runOn_bind, apply_null, hnull]
    exact ih

/-- What is evaluated for an access to null: the key of an index. -/
def keyMoments (scope : ScopeId) (m : Memory) : Access → List Moment
  | index key _ => [.evaluated scope (.const key) m (.ok key) m]
  | field .. | method .. => []

/-- The moments of accesses to null, in a chain that begins with an expression and is evaluated from
`before`: keys are evaluated, and the parts of the chain end with null. -/
def moments (scope : ScopeId) (before m : Memory) : Expr → List Access → List Moment
  | _, [] => []
  | target, access :: accesses =>
    access.keyMoments scope m ++
      .evaluated scope (access.of target) before (.ok .null) m ::
        moments scope before m (access.of target) accesses

end Access

namespace Expr

/-- An expression with accesses behind it. -/
def chain (target : Expr) (accesses : List Access) : Expr := accesses.foldl Access.of target

/-- A chain in two parts is the second part behind the first. -/
theorem chain_append (target : Expr) (front rest : List Access) :
    target.chain (front ++ rest) = (target.chain front).chain rest :=
  List.foldl_append ..

/-- A chain evaluates its target, and then makes its accesses one after the other. -/
theorem eval_chain (host : Host) (scope : ScopeId) (target : Expr) (accesses : List Access) :
    (target.chain accesses).eval host scope =
      target.eval host scope >>= fun t => accesses.foldlM (Access.apply host scope) t := by
  induction accesses generalizing target with
  | nil => exact (bind_pure _).symm
  | cons access accesses ih =>
    change ((access.of target).chain accesses).eval host scope = _
    rw [ih, Access.eval_of, bind_assoc]
    simp only [List.foldlM_cons]

variable {host : Host} {scope : ScopeId} {target : Expr} {m after : Memory}

/-- A null is handed on to the end of a chain. -/
theorem eval_chain_of_null (h : (target.eval host scope).runOn m = (.ok .null, after))
    (hnull : after.control.nullSafe = true) (rest : List Access) :
    ((target.chain rest).eval host scope).runOn m = (.ok .null, after) := by
  rw [eval_chain, runOn_bind, h]
  exact Access.foldlM_apply_null host scope rest hnull

/-- The record of an expression is that of its steps, with the end of the expression behind it. -/
theorem record_of_steps {e : Expr} {steps : Recorded Memory Error Value}
    (hsteps : Recorded.eval host scope e = .noting (.evaluated scope e) steps) (m : Memory) :
    (Recorded.eval host scope e).record m = steps.record m ++
      [.evaluated scope e m ((e.eval host scope).runOn m).1 ((e.eval host scope).runOn m).2] := by
  have houtcome : steps.outcome m = (e.eval host scope).runOn m := by
    rw [← Recorded.outcome_eval, hsteps]
    rfl
  rw [hsteps, ← houtcome]
  rfl

/-- The moments of an access to null are those of its target, the key, and its own end. -/
theorem record_access_of_null (h : (target.eval host scope).runOn m = (.ok .null, after))
    (hnull : after.control.nullSafe = true) (access : Access) :
    (Recorded.eval host scope (access.of target)).record m =
      (Recorded.eval host scope target).record m ++ (access.keyMoments scope after ++
        [.evaluated scope (access.of target) m (.ok .null) after]) := by
  have hrun : ((access.of target).eval host scope).runOn m = (.ok .null, after) :=
    eval_chain_of_null h hnull [access]
  have htarget : (Recorded.eval host scope target).outcome m = (.ok .null, after) :=
    (Recorded.outcome_eval host scope target m).trans h
  -- what comes behind the target is short: the key of an index, and no argument of a method
  cases access with
  | field name location =>
    rw [record_of_steps (by rw [Access.of, Recorded.eval]), hrun, Recorded.record_bind, htarget]
    exact congrArg (· ++ _) (List.append_nil _)
  | index key location =>
    rw [record_of_steps (by rw [Access.of, Recorded.eval]), hrun, Recorded.record_bind, htarget,
      ← List.append_assoc]
    rfl
  | method name args location =>
    rw [record_of_steps (by rw [Access.of, Recorded.eval]), hrun, Recorded.record_bind, htarget]
    refine congrArg (· ++ _) ?_
    change _ ++ (Recorded.silent get >>= fun m : Memory => if m.control.nullSafe then _ else _).record
      after = _
    rw [Recorded.record_bind]
    change _ ++ ([] ++ (if after.control.nullSafe then _ else _ : Recorded Memory Error Value).record
      after) = _
    rw [hnull]
    exact List.append_nil _

/-- Behind a null nothing is evaluated to the end of a chain but the keys of indexes. -/
theorem record_chain_of_null (h : (target.eval host scope).runOn m = (.ok .null, after))
    (hnull : after.control.nullSafe = true) (rest : List Access) :
    (Recorded.eval host scope (target.chain rest)).record m =
      (Recorded.eval host scope target).record m ++ Access.moments scope m after target rest := by
  induction rest generalizing target with
  | nil => exact (List.append_nil _).symm
  | cons access rest ih =>
    change (Recorded.eval host scope ((access.of target).chain rest)).record m = _
    have hrun : ((access.of target).eval host scope).runOn m = (.ok .null, after) :=
      eval_chain_of_null h hnull [access]
    rw [ih hrun, record_access_of_null h hnull]
    simp only [Access.moments, List.append_assoc, List.singleton_append]

/-- The moments of a `??` whose left operand is null are those of both operands, and its own end. -/
theorem record_coalesce_of_null (h : (withNullSafe (target.eval host scope)).runOn m =
    (.ok .null, after)) (fallback : Expr) :
    (Recorded.eval host scope (target.coalesce fallback)).record m =
      (Recorded.eval host scope target).record m.forgiving ++
        ((Recorded.eval host scope fallback).record after ++
          [.evaluated scope (target.coalesce fallback) m ((fallback.eval host scope).runOn after).1
            ((fallback.eval host scope).runOn after).2]) := by
  have hoperand : (Recorded.withNullSafe (Recorded.eval host scope target)).outcome m =
      (.ok .null, after) := by
    have hcomposes := Recorded.Faithful.evalComposes { host } scope
    exact ((hcomposes.withNullSafe (hcomposes.eval target)).outcome m).trans h
  rw [record_of_steps (by rw [Recorded.eval]), eval_coalesce_of_null h, Recorded.record_bind,
    hoperand, ← List.append_assoc]
  rfl

/-- The left operand of `??`, if it is null: what it leaves is the memory with the control state from
before. -/
theorem withNullSafe_of_null (h : (target.eval host scope).runOn m.forgiving = (.ok .null, after)) :
    (withNullSafe (target.eval host scope)).runOn m =
      (.ok .null, { after with control := m.control }) := by
  -- the control state is put back behind the operand
  have hcontrol : after.control = m.forgiving.control := by
    have hrestores := (target.eval_restores host scope m.forgiving).2
    rwa [h] at hrestores
  change (((target.eval host scope).runOn m.forgiving).1,
    ({ ((target.eval host scope).runOn m.forgiving).2 with
      control := { ((target.eval host scope).runOn m.forgiving).2.control with
        nullSafe := m.control.nullSafe } } : Memory)) = _
  rw [h]
  dsimp only
  rw [hcontrol]
  rfl

/-- A chain with a null in it fails where reads of null are not forgiven. -/
theorem eval_chain_fails (h : (target.eval host scope).runOn m.forgiving = (.ok .null, after))
    (hstrict : m.control.nullSafe = false) {rest : List Access} (hrest : rest ≠ []) :
    ∃ error, (((target.chain rest).eval host scope).runOn m).1 = .error error := by
  obtain ⟨access, rest, rfl⟩ := List.exists_cons_of_ne_nil hrest
  rw [eval_chain, runOn_bind]
  -- if the target fails already, so does the chain behind it
  rcases hrun : (target.eval host scope).runOn m with ⟨error | v, mid⟩
  · exact ⟨error, rfl⟩
  · -- the target has succeeded, so with the null that it gives where such reads are forgiven
    have hforgiving := target.eval_forgives host scope m mid v hrun
    obtain rfl : v = .null := by
      rw [h] at hforgiving
      exact (Except.ok.inj (congrArg Prod.fst hforgiving)).symm
    have hmid : mid.control.nullSafe = false := (nullSafe_of_eval hrun).trans hstrict
    refine ⟨access.nullError mid.heap, ?_⟩
    dsimp only
    rw [List.foldlM_cons, runOn_bind, access.apply_null, hmid]
    rfl

end Expr

/-- **A null anywhere in a chain selects the default.** Take a chain of accesses to a variable, in
any frame and any memory, and let a part at its front be null where reads of null are forgiven.

Then the chain with a default behind `??` evaluates to what the default does: from the variables and
the heap that the front has left, and with the control state that is in force around the `??`. What
happens is what happens in the front, the ends of the accesses behind it with the keys of indexes,
and then the default: no argument is evaluated. On the null, the accesses behind the front give null
and change nothing whatever the methods of the host are, as they call none. And where reads of null
are not forgiven, the chain by itself fails at one of its locations if there is an access behind the
front. -/
theorem null_in_chain_selects_default (host : Host) (scope : ScopeId) (name : String)
    (front rest : List Access) {m after : Memory}
    (h : (((Expr.var name).chain front).eval host scope).runOn m.forgiving = (.ok .null, after)) :
    let whole := (Expr.var name).chain (front ++ rest)
    let resumed : Memory := { after with control := m.control }
    (∀ fallback : Expr,
      ((whole.coalesce fallback).eval host scope).runOn m =
        (fallback.eval host scope).runOn resumed ∧
      (Recorded.eval host scope (whole.coalesce fallback)).record m =
        (Recorded.eval host scope ((Expr.var name).chain front)).record m.forgiving ++
          Access.moments scope m.forgiving after ((Expr.var name).chain front) rest ++
          (Recorded.eval host scope fallback).record resumed ++
          [.evaluated scope (whole.coalesce fallback) m
            ((fallback.eval host scope).runOn resumed).1
            ((fallback.eval host scope).runOn resumed).2]) ∧
    (∀ host' : Host, (rest.foldlM (Access.apply host' scope) .null).runOn after =
      (.ok .null, after)) ∧
    (m.control.nullSafe = false → rest ≠ [] → ∃ fault, ∃ location ∈ whole.locations,
      ((whole.eval host scope).runOn m).1 = .error (.template fault location)) := by
  intro whole resumed
  have hsplit : whole = ((Expr.var name).chain front).chain rest := Expr.chain_append _ front rest
  have hnull : after.control.nullSafe = true := Expr.nullSafe_of_eval h
  have hwhole : (whole.eval host scope).runOn m.forgiving = (.ok .null, after) := by
    rw [hsplit]
    exact Expr.eval_chain_of_null h hnull rest
  have hoperand := Expr.withNullSafe_of_null hwhole
  refine ⟨fun fallback => ⟨Expr.eval_coalesce_of_null hoperand fallback, ?_⟩,
    fun host' => Access.foldlM_apply_null host' scope rest hnull, fun hstrict hrest => ?_⟩
  -- the record of the chain ends with the null, for all accesses behind it are passed by
  · rw [Expr.record_coalesce_of_null hoperand, hsplit, Expr.record_chain_of_null h hnull]
    simp only [List.append_assoc]
    rfl
  -- a failing operand has no value that `??` could replace
  · obtain ⟨error, herror⟩ := Expr.eval_chain_fails h hstrict hrest
    rw [← hsplit] at herror
    obtain ⟨fault, location, hmem, rfl⟩ := whole.eval_failsAt host scope m _ error
      (Prod.ext herror rfl)
    exact ⟨fault, location, hmem, herror⟩

/-- A key that is missing in a map: the method behind it is not called, and its argument, which
would assign, is not evaluated. -/
theorem null_in_chain_selects_default_missing_key :
    let front : List Access := [.field "user" default]
    let rest : List Access := [.index (.int 0) default,
      .method "trim" [.assign "y" (.const (.int 1)) default] default]
    let whole := (Expr.var "x").chain (front ++ rest)
    let heap := (({} : Heap).newMap .empty).2
    let m : Memory := ⟨heap, .ofData (.ofList [("x", (({} : Heap).newMap .empty).1)]), {}⟩
    (((Expr.var "x").chain front).eval {} 0).runOn m.forgiving = (.ok .null, m.forgiving) ∧
    ((whole.coalesce (.const (.str "none"))).eval {} 0).runOn m = (.ok (.str "none"), m) ∧
    ∃ fault, ∃ location ∈ whole.locations,
      ((whole.eval {} 0).runOn m).1 = .error (.template fault location) := by
  intro front rest whole heap m
  have hfront : (((Expr.var "x").chain front).eval {} 0).runOn m.forgiving =
      (.ok .null, m.forgiving) := by
    with_unfolding_all rfl
  obtain ⟨hdefault, -, hfails⟩ := null_in_chain_selects_default {} 0 "x" front rest hfront
  exact ⟨hfront, (hdefault (.const (.str "none"))).1, hfails rfl (List.cons_ne_nil _ _)⟩

end Stencil
