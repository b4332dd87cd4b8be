import Stencil.Proofs.Render.Frames
import Stencil.Proofs.Render.Simulation

/-!
# Nothing is missing from a record

A record is put together by the recorded twins of actions, and nothing in its type says that it is
complete. There are two ways to say it:

* What runs in the course of an action (`Recorded.RunsIn`) has its moments in the record of the
  action. So there is a moment for every execution, evaluation, lookup and assignment, with the
  state before it and the way it has ended (`Recorded.Complete`).
* The steps of which no note is taken reach no frame. So a name that is written at no moment keeps
  its bindings (`Compiled.render_unwritten`), and what a name is bound to has no influence if it is
  read at no moment (`Engine.render_eq_of_not_read` in `Stencil.Proofs.Engine.Independence`).

Main definitions: `Recorded.RunsIn`, `Recorded.Complete`, `Moment.IsReadOf`, `Moment.IsWriteOf`.
Main statements: `Compiled.recorded_complete`, `Compiled.render_unwritten`.
-/

namespace Stencil

/-! ### What runs in the course of an action -/

namespace Recorded

/-- A recorded action runs, from a state, in the course of another one: it is that action, or it
runs in one that the other is put together from. -/
inductive RunsIn {τ ε' β : Type} (y : Recorded τ ε' β) (t : τ) :
    {σ ε α : Type} → Recorded σ ε α → σ → Prop where
  | self : RunsIn y t y t
  | first {σ ε α β : Type} {x : Recorded σ ε α} {f : α → Recorded σ ε β} {s : σ} :
      RunsIn y t x s → RunsIn y t (x >>= f) s
  | next {σ ε α β : Type} {x : Recorded σ ε α} {f : α → Recorded σ ε β} {s after : σ} {a : α} :
      x.outcome s = (.ok a, after) → RunsIn y t (f a) after → RunsIn y t (x >>= f) s
  | inside {ρ σ ε ε' α β : Type} {enter : σ → ρ} {leave : σ → Except ε α × ρ → Except ε' β × σ}
      {x : Recorded ρ ε α} {s : σ} :
      RunsIn y t x (enter s) → RunsIn y t (inside enter leave x) s
  | noting {σ ε α : Type} {moment : σ → Except ε α → σ → Moment} {x : Recorded σ ε α} {s : σ} :
      RunsIn y t x s → RunsIn y t (noting moment x) s
  | inFrame {α : Type} {parent : ScopeId} {x : ScopeId → Recorded RenderState Stop α}
      {st : RenderState} :
      RunsIn y t (x st.memory.scopes.frames.size) (st.opened parent) →
      RunsIn y t (inFrame parent x) st

variable {σ τ ε ε' α β : Type}

/-- What happens in an action happens in every action in the course of which it runs. -/
theorem RunsIn.record_subset {y : Recorded τ ε' β} {t : τ} {x : Recorded σ ε α} {s : σ}
    (h : y.RunsIn t x s) : y.record t ⊆ x.record s := by
  induction h with
  | self => exact List.Subset.refl _
  | first _ ih =>
    rw [record_bind]
    -- What follows is on record only if the first action succeeds.
    split
    · exact List.Subset.trans ih (List.subset_append_left _ _)
    · exact ih
  | next hok _ ih =>
    rw [record_bind, hok]
    exact List.Subset.trans ih (List.subset_append_right _ _)
  | inside _ ih => exact ih
  | noting _ ih => exact List.Subset.trans ih (List.subset_append_left _ _)
  | inFrame _ ih => exact ih

/-- Whatever is executed, evaluated, looked up and assigned to in the course of an action is on
record, with the state before it, and how it has ended. -/
structure Complete (config : Config) (x : Recorded σ ε α) (s : σ) : Prop where
  executed : ∀ {fuel functions statement scope loops before},
    (exec config fuel functions statement scope loops).RunsIn before x s →
    let run := (statement.exec config fuel functions scope).runOn before
    .executed ⟨fuel, functions, scope, loops⟩ statement before run.1 run.2 ∈ x.record s
  evaluated : ∀ {scope e before}, (eval config.host scope e).RunsIn before x s →
    let run := (e.eval config.host scope).runOn before
    .evaluated scope e before run.1 run.2 ∈ x.record s
  read : ∀ {scope name m}, (lookup config.host scope name).RunsIn m x s →
    .read scope name m ∈ x.record s
  assigned : ∀ {scope name value m}, (assign scope name value).RunsIn m x s →
    .written m.control.policy scope name value m ∈ x.record s
  bound : ∀ {scope name value st}, (bindName scope name value).RunsIn st x s →
    .written .inner scope name value st.memory ∈ x.record s

/-- The last moment of a noted action is how it has ended. -/
theorem mem_noting {moment : σ → Except ε α → σ → Moment} {x : Recorded σ ε α} {s : σ} :
    moment s (x.outcome s).1 (x.outcome s).2 ∈ (noting moment x).record s :=
  List.mem_append_right _ (List.mem_singleton_self _)

/-- Every record is complete. -/
theorem complete (config : Config) (x : Recorded σ ε α) (s : σ) : x.Complete config s where
  executed {fuel functions statement scope loops before} h := by
    have hfaithful := exec_faithful config fuel functions statement scope loops
    rw [← show _ = (statement.exec config fuel functions scope).runOn before from
      hfaithful.outcome before]
    cases fuel <;> exact h.record_subset mem_noting
  evaluated {scope e before} h := by
    rw [← outcome_eval]
    cases e <;> exact h.record_subset mem_noting
  read h := h.record_subset List.mem_cons_self
  assigned h := h.record_subset List.mem_cons_self
  bound h := h.record_subset List.mem_cons_self

end Recorded

/-- **Records of renders are complete.** A render executes the body of its template, and everything
that is executed, evaluated, looked up and assigned to in the course of it is on its record. -/
theorem Compiled.recorded_complete (config : Config) (fuel : Nat) (unit : Compiled)
    (st : RenderState) :
    (Recorded.exec config fuel unit.functions unit.body 0 0).RunsIn st (unit.recorded config fuel)
        st ∧
      (unit.recorded config fuel).Complete config st :=
  ⟨.first .self, Recorded.complete config _ st⟩

/-! ### Names that are read or written nowhere -/

/-- A moment is a lookup of a name. -/
def Moment.IsReadOf (name : String) : Moment → Prop
  | .read _ other _ => other = name
  | .executed .. | .evaluated .. | .written .. | .directed .. => False

/-- A moment is an assignment to a name. -/
def Moment.IsWriteOf (name : String) : Moment → Prop
  | .written _ _ other _ _ => other = name
  | .executed .. | .evaluated .. | .read .. | .directed .. => False

/-- The same frames twice, in which a name is bound in frame `0` at most, to what is given. -/
def Scopes.BoundAtRoot (name : String) (bound : Option Value) (s s' : Scopes) : Prop :=
  s = s' ∧ ∀ i, s.slot? i name = if i = 0 then bound else none

/-- A name that is not assigned to stays bound as it is. -/
theorem Scopes.boundAtRoot_simulation (shared : Assoc Value) (name : String)
    (bound : Option Value) :
    Simulation shared .same (¬ ·.IsWriteOf name) (BoundAtRoot name bound) where
  reads _ _ _ := ⟨⟩
  get := by
    rintro s _ i _ other m - ⟨rfl, -⟩ rfl -
    rfl
  -- a binding to another name changes nothing about this one
  set := by
    rintro s _ i _ policy other value m hother ⟨rfl, hbound⟩ rfl -
    refine ⟨rfl, fun j => ?_⟩
    rw [Scopes.set, slot?_bind_of_link, if_neg fun hj => hother hj.2.symm]
    exact hbound j
  push := by
    rintro s _ i _ ⟨rfl, hbound⟩ rfl
    exact ⟨⟨rfl, fun j => by rw [slot?_push, hbound]⟩, rfl⟩
  pop := by
    rintro s _ i _ ⟨rfl, hbound⟩ rfl
    refine ⟨rfl, fun j => ?_⟩
    rcases Nat.eq_zero_or_pos i with rfl | hi
    · exact hbound j
    · rw [slot?_pop _ hi, hbound]
      split
      · rfl
      · -- The frame was dropped, and had no binding unless it was frame `0`.
        rename_i hj
        rw [if_neg (Nat.ne_of_gt (Nat.lt_of_lt_of_le hi (Nat.le_of_not_lt hj)))]

/-- **Every assignment is on record.** A render that assigns to a name at no moment of its record
leaves it bound as it was in the data. -/
theorem Compiled.render_unwritten {config : Config} {fuel : Nat} {unit : Compiled}
    {data : Assoc Value} {heap : Heap} {output : Output} {library : Library} {files : Files}
    {name : String} :
    let start : RenderState := ⟨⟨heap, .ofData data, {}⟩, output, library, files⟩
    (∀ moment ∈ (unit.recorded config fuel).record start, ¬ moment.IsWriteOf name) →
    ∀ i, ((unit.render config fuel).runOn start).2.memory.scopes.slot? i name =
      start.memory.scopes.slot? i name := by
  -- at the start all names of the data are bound in the root frame, and nowhere else
  intro start hunwritten i
  have hbound (j : ScopeId) : (Scopes.ofData data).slot? j name =
      if j = 0 then data.get? name else none := by
    cases j <;> rfl
  have S := Scopes.boundAtRoot_simulation config.host.objects name (data.get? name)
  have hstart : start.Matches (Scopes.BoundAtRoot name (data.get? name)) start :=
    ⟨⟨rfl, ⟨rfl, hbound⟩, rfl, rfl⟩, rfl, rfl, rfl⟩
  obtain ⟨-, hafter⟩ := S.render fuel unit rfl hstart hunwritten
  exact ((hafter.memory.scopes).2 i).trans (hbound i).symm

end Stencil
