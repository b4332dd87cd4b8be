import Mathlib
import Stencil.Proofs.Render.Frames
import Stencil.Proofs.Render.Simulation

/-!
# Local writes stay in their frames

A loop, a call, an included and a rendered file run in a frame of their own. What they bind there is
gone with it; what they assign to under the policies `nearest` and `root` may be bound further out.
Here: if no assignment is made under one of these two, nothing further out is changed.

Which assignments are made is a matter of a run, not of a text. So they are taken from the record of
the run: a moment is **local** if it is no assignment to a variable, or one under the policy
`inner`.

Fix a number `base` of frames. A run in which all moments are local is a simulation of itself that
keeps the frames below `base` as they are (`Scopes.below_simulation`):

* An assignment under the policy `inner` goes to the frame that it stands in. So it must not stand
  in a frame below `base`; this is what `Matching.above` says of the frames that are opened from
  now on.
* In the frame at hand, which is below `base`, such an assignment could stand only if its policy
  were in force when the statement begins. It is not: `Render.Nearest` says that every statement of
  a render is executed under the policy `nearest`.

Main definitions: `Moment.IsLocal`, `Scopes.below`.
Main statements: `Statement.exec_local`, `local_writes_stay`.
-/

namespace Stencil

/-! ### Frames below a number -/

namespace Scopes

/-- The frames below a number. -/
def below (s : Scopes) (base : Nat) : List Frame := s.frames.toList.take base

/-- A binding in another frame changes none of them. -/
theorem below_bind (s : Scopes) {base : Nat} {scope : ScopeId} (h : base ≤ scope) (name : String)
    (value : Value) : (s.bind scope name value).below base = s.below base := by
  apply List.ext_getElem?
  intro i
  rw [below, below, List.getElem?_take, List.getElem?_take]
  split
  · rename_i hi
    have hne : scope ≠ i := Nat.ne_of_gt (Nat.lt_of_lt_of_le hi h)
    rw [Array.getElem?_toList, Array.getElem?_toList, bind, Array.getElem?_modify, if_neg hne]
  · rfl

/-- Neither does a frame that is opened on top. -/
theorem below_push (s : Scopes) {base : Nat} (h : base ≤ s.frames.size) (parent : ScopeId) :
    (s.push parent).2.below base = s.below base := by
  rw [below, below, push, Array.toList_push, List.take_append_of_le_length]
  rwa [Array.length_toList]

/-- Nor one that is dropped. -/
theorem below_pop (s : Scopes) {base : Nat} {scope : ScopeId} (h : base ≤ scope) :
    (s.pop scope).below base = s.below base := by
  rw [pop]
  split
  · rw [below, below, Array.take_eq_extract, Array.toList_extract, List.extract_eq_take_drop,
      List.drop_zero, Nat.sub_zero, List.take_take, Nat.min_eq_left h]
  · rfl

/-- Where there are frames up to a number, there are as many below it. -/
theorem le_size_of_below_eq {s s' : Scopes} {base : Nat} (h : s'.below base = s.below base)
    (hsize : base ≤ s.frames.size) : base ≤ s'.frames.size := by
  have hlength := congrArg List.length h
  rw [below, below, List.length_take, List.length_take, Array.length_toList, Array.length_toList,
    Nat.min_eq_left hsize] at hlength
  calc base = min base s'.frames.size := hlength.symm
    _ ≤ s'.frames.size := Nat.min_le_right base s'.frames.size

/-- All frames together are those below their number. -/
theorem eq_of_below_eq {s s' : Scopes} (hsize : s'.frames.size = s.frames.size)
    (h : s'.below s.frames.size = s.below s.frames.size) : s' = s := by
  have hwhole (t : Scopes) : t.below t.frames.size = t.frames.toList := by
    rw [below, ← Array.length_toList, List.take_length]
  have hframes : s'.frames.toList = s.frames.toList := by
    calc s'.frames.toList = s'.below s'.frames.size := (hwhole s').symm
      _ = s.below s.frames.size := by rw [hsize, h]
      _ = s.frames.toList := hwhole s
  exact congrArg Scopes.mk (Array.ext' hframes)

end Scopes

/-! ### Local runs -/

/-- A moment is no assignment to a variable, or one under the policy `inner`. -/
def Moment.IsLocal : Moment → Prop
  | .written policy .. => policy = .inner
  | .executed .. | .evaluated .. | .read .. | .directed .. => True

instance : DecidablePred Moment.IsLocal
  | .written policy .. => inferInstanceAs (Decidable (policy = .inner))
  | .executed .. | .evaluated .. | .read .. | .directed .. => isTrue ⟨⟩

/-- Frames correspond to themselves, and those from a number on may be bound in. -/
def Matching.above (base : Nat) : Matching where
  sees := Eq
  owns i i' := i = i' ∧ base ≤ i
  names _ := True
  sees_of_owns := And.left

/-- The same frames twice, and below a number they are as given. -/
def Scopes.Keep (base : Nat) (frames : List Frame) (s s' : Scopes) : Prop :=
  s = s' ∧ base ≤ s.frames.size ∧ s.below base = frames

/-- A run in which everything is local keeps the frames below a number. -/
theorem Scopes.below_simulation (shared : Assoc Value) (base : Nat) (frames : List Frame) :
    Simulation shared (.above base) Moment.IsLocal (Keep base frames) where
  reads _ _ _ := ⟨⟩
  get := by
    rintro s _ i _ name m - ⟨rfl, -, -⟩ rfl -
    rfl
  set := by
    rintro s _ i _ policy name value m rfl ⟨rfl, hsize, hframes⟩ rfl howns
    -- The assignment is local, so it goes to the frame at hand, which is none of those below.
    have hbelow := s.below_bind (howns rfl).2 name value
    exact ⟨rfl, le_size_of_below_eq hbelow hsize, hbelow.trans hframes⟩
  push := by
    rintro s _ i _ ⟨rfl, hsize, hframes⟩ rfl
    have hbelow := s.below_push hsize i
    exact ⟨⟨rfl, le_size_of_below_eq hbelow hsize, hbelow.trans hframes⟩, rfl, hsize⟩
  pop := by
    rintro s _ i _ ⟨rfl, hsize, hframes⟩ ⟨rfl, hi⟩
    have hbelow := s.below_pop hi
    exact ⟨rfl, le_size_of_below_eq hbelow hsize, hbelow.trans hframes⟩

/-- **A local run of a statement with a frame of its own changes no frame.** Neither does one that
fails or runs out of fuel. -/
theorem Statement.exec_local {config : Config} {fuel : Nat} {functions : Assoc TemplateFunction}
    {s : Statement} {scope : ScopeId} {loops : Nat} {st : RenderState} (hopens : s.opensFrame)
    (hroot : 0 < st.memory.scopes.frames.size) (hpolicy : st.memory.control.policy = .nearest)
    (hlocal : ∀ moment ∈ (Recorded.exec config fuel functions s scope loops).record st,
      moment.IsLocal) :
    ((s.exec config fuel functions scope).runOn st).2.memory.scopes = st.memory.scopes := by
  -- All frames that there are now are below the number of the next one.
  let base := st.memory.scopes.frames.size
  have S := Scopes.below_simulation config.host.objects base (st.memory.scopes.below base)
  have hst : st.Matches (Scopes.Keep base (st.memory.scopes.below base)) st :=
    ⟨⟨rfl, ⟨rfl, Nat.le_refl base, rfl⟩, rfl, hpolicy⟩, rfl, rfl, rfl⟩
  have hsees : (Matching.above base).sees scope scope := rfl
  obtain ⟨-, hafter⟩ := S.exec_apart fuel functions s hsees (.inr (.inr hopens)) loops hst hlocal
  obtain ⟨-, -, hbelow⟩ := hafter.memory.scopes
  -- There are as many as before, so they are all there are.
  have hparents : st.memory.scopes.parents ≠ [] := by
    rwa [← List.length_pos_iff, Scopes.length_parents]
  have hskeleton := @Statement.exec_restores config fuel functions s scope st hparents
  have hsize := (Scopes.links_of_parents_eq (congrArg Skeleton.parents hskeleton)).1
  exact Scopes.eq_of_below_eq hsize hbelow

/-! ### The policy that statements are executed under -/

/-- A statement is executed under the policy `nearest`. -/
def Moment.UnderNearest : Moment → Prop
  | .executed _ _ before _ _ => before.memory.control.policy = .nearest
  | .evaluated .. | .read .. | .written .. | .directed .. => True

variable {α β : Type} {config : Config}

/-- No statements are executed in evaluations. -/
def Eval.Nearest (x : Recorded Memory Error α) : Prop :=
  ∀ m, ∀ moment ∈ x.record m, moment.UnderNearest

/-- From states with a frame `0` and under the policy `nearest`, every statement of an action is
executed under this policy. -/
structure Render.Nearest (config : Config) (x : Recorded RenderState Stop α) (act : Render α) :
    Prop where
  faithful : x.Faithful config act
  restores : act.Restores
  nearest : ∀ st : RenderState, st.memory.scopes.parents ≠ [] →
    st.memory.control.policy = .nearest → ∀ moment ∈ x.record st, moment.UnderNearest

/-- No statement is executed in an evaluation. -/
theorem Eval.Nearest.evalComposes (host : Host) (scope : ScopeId) :
    EvalComposes host scope fun x _ => Eval.Nearest x where
  silent _ _ _ hmoment := absurd hmoment List.not_mem_nil
  bind hx hf m := Recorded.forall_record_bind (hx m) fun a after _ => hf a after
  lookup name m moment hmoment := by
    obtain rfl := List.mem_singleton.mp hmoment
    exact ⟨⟩
  assign name value m moment hmoment := by
    obtain rfl := List.mem_singleton.mp hmoment
    exact ⟨⟩
  withNullSafe h _ := h _
  withPolicy _ _ _ h _ := h _
  noting h m moment hmoment := by
    rcases Recorded.mem_record_noting hmoment with hinner | rfl
    · exact h m moment hinner
    · exact ⟨⟩

namespace Render.Nearest

theorem silent {act : Render α} (h : act.Restores) : Nearest config (.silent act) act :=
  ⟨.silent act, h, fun _ _ _ _ hmoment => absurd hmoment List.not_mem_nil⟩

/-- Actions under the policy go on with actions under it. -/
theorem bind {x : Recorded RenderState Stop α} {y : Render α} {f : α → Recorded RenderState Stop β}
    {g : α → Render β} (hx : Nearest config x y) (hf : ∀ a, Nearest config (f a) (g a)) :
    Nearest config (x >>= f) (y >>= g) where
  faithful := hx.faithful.bind fun a => (hf a).faithful
  restores := hx.restores.bind fun a => (hf a).restores
  nearest st hroot hpolicy := by
    refine Recorded.forall_record_bind (hx.nearest st hroot hpolicy) fun a after houtcome => ?_
    -- The first action has put the policy back.
    have hafter : after = (y.runOn st).2 := by
      have := hx.faithful.outcome st
      rw [houtcome] at this
      exact congrArg Prod.snd this
    have hskeleton := hx.restores st hroot
    rw [← hafter] at hskeleton
    exact (hf a).nearest after (parents_ne_nil_of_skeleton_eq hskeleton hroot)
      ((congrArg Skeleton.policy hskeleton).trans hpolicy)

/-- An evaluation that executes no statement. -/
theorem ofEval {x : Recorded Memory Error α} {y : Eval α} (hx : x.Faithful config y)
    (hy : y.Restores) (h : Eval.Nearest x) : Nearest config (.ofEval x) (Render.ofEval y) where
  faithful := .inside hx fun _ => rfl
  restores := .ofEval hy
  nearest st _ _ := h st.memory

/-- A frame that is opened changes no policy. -/
theorem inFrame {x : ScopeId → Recorded RenderState Stop α} {y : ScopeId → Render α}
    (h : ∀ frame, Nearest config (x frame) (y frame)) (parent : ScopeId) :
    Nearest config (.inFrame parent x) (Render.inFrame parent y) where
  faithful := .inFrame (fun frame => (h frame).faithful) parent
  restores := .inFrame (fun frame => (h frame).restores) parent
  nearest st _ hpolicy := by
    have hopened : (st.opened parent).memory.scopes.parents ≠ [] := by
      rw [show (st.opened parent).memory.scopes.parents = _ from
        st.memory.scopes.parents_push parent]
      exact List.append_ne_nil_of_right_ne_nil _ (List.cons_ne_nil _ _)
    exact (h st.memory.scopes.frames.size).nearest (st.opened parent) hopened hpolicy

/-- Runs execute their statements under the policy `nearest`, by their rules. -/
theorem runComposes (config : Config) :
    RunComposes config
      (fun _ {_} x act => x.Faithful config act ∧ act.Restores ∧ Eval.Nearest x)
      (fun _ _ => Nearest config) where
  parts _ top :=
    { evals := fun scope =>
        (Recorded.Faithful.evalComposes config scope).and
          ((Eval.Restores.evalComposes config.host scope).and
            (Eval.Nearest.evalComposes config.host scope))
      silent := fun h => silent (.quiet h)
      bind := bind
      evalTop := fun h => ofEval h.1 h.2.1 h.2.2
      evalOuter := fun h => ofEval h.1 h.2.1 h.2.2
      bindName := fun name value =>
        { faithful := .noted (.silent _) fun _ => ⟨⟩
          restores := .bindName top name value
          nearest := fun _ _ _ moment hmoment => by
            obtain rfl := List.mem_singleton.mp hmoment
            exact ⟨⟩ } }
  setJump kind := silent (.setJump kind)
  takeLoopJump := silent .takeLoopJump
  attempt h := ⟨.inside h.faithful fun _ => rfl, .attempt h.restores, h.nearest⟩
  captured h := ⟨.inside h.faithful fun _ => rfl, .captured h.restores,
    fun st => h.nearest { st with output := .unlimited }⟩
  inFrame h := inFrame h _
  confined {_ top} _ _ _ h :=
    { faithful := .inside (.inFrame (fun frame => (h frame).faithful) top) fun _ => rfl
      restores := .confined (fun frame => (h frame).restores) top
      nearest := (inFrame h top).nearest }
  noting _ _ h :=
    { faithful := .noting h.faithful fun _ => rfl
      restores := h.restores
      nearest := fun st hroot hpolicy moment hmoment => by
        -- a moment inside, or the statement itself, which is entered under the policy of its
        -- surroundings
        rcases Recorded.mem_record_noting hmoment with hinner | rfl
        · exact h.nearest st hroot hpolicy moment hinner
        · exact hpolicy }
  directed bodies result :=
    { faithful := .noted (.silent _) fun _ => ⟨⟩
      restores := .quiet (@Quiet.ofExcept config _ result)
      nearest := fun _ _ _ moment hmoment => by
        obtain rfl := List.mem_singleton.mp hmoment
        exact ⟨⟩ }

end Render.Nearest

/-- **Local writes never leak.** Take any moment of any render at which a loop, a call, an `#include`
or a `#render` has been executed, in whatever frame and however it ended. If every assignment to a
variable in the record of this execution was made under the policy `inner`, then behind it the frames
are what they were in front of it: as many, with the same parents, and each with exactly the bindings
it had. -/
theorem local_writes_stay (config : Config) (fuel : Nat) (unit : Compiled) (data : Assoc Value)
    (heap : Heap) (output : Output) (library : Library) (files : Files) :
    let start : RenderState := ⟨⟨heap, .ofData data, {}⟩, output, library, files⟩
    ∀ place s before result after,
      .executed place s before result after ∈ (unit.recorded config fuel).record start →
      s.opensFrame →
      (∀ moment ∈ (Recorded.exec config place.fuel place.functions s place.scope place.loops).record
        before, moment.IsLocal) →
      after.memory.scopes = before.memory.scopes := by
  intro start place s before result after hmoment hopens hlocal
  have hnearest := (Render.Nearest.runComposes config).render fuel unit
  have hpolicy : before.memory.control.policy = .nearest :=
    hnearest.nearest start (List.cons_ne_nil _ _) rfl _ hmoment
  have hframed := (Render.Framed.runComposes config).render fuel unit
  -- the frames are a stack before the statement, and the root is one of them
  have hstacked : before.memory.scopes.Stacked :=
    (hframed.framed (Nat.le_refl 0) start (Scopes.stacked_ofData data) rfl _ hmoment _
      List.mem_cons_self).1
  have hgenuine : (s.exec config place.fuel place.functions place.scope).runOn before =
      (result, after) := hnearest.faithful.genuine start _ hmoment
  have hsame := Statement.exec_local hopens hstacked.root hpolicy hlocal
  rwa [hgenuine] at hsame

/-- A loop that hides a name of the data, assigns to it and fails in its second turn, in the middle
of another assignment. -/
theorem local_writes_stay_failed :
    let turn : Statement := .block
      [.assign .inner [.assign "x" (.arith .mul (.var "x") (.const (.int 2)) default) default],
        .assign .inner [.assign "y" (.index (.list [.var "x"]) (.field (.var "for") "index" default)
          default) default]]
    let loop : Statement :=
      .loop (.each "x" (.list [.const (.int 1), .const (.int 2)])) turn .nothing
    let start : RenderState :=
      ⟨⟨{}, .ofData (.ofList [("x", .int 5)]), {}⟩, .unlimited, {}, {}⟩
    let unit : Compiled := { body := loop, functions := .empty, sources := [] }
    let run := (unit.render {} 10).runOn start
    run.1 = .error (.error (.template (.indexOutOfBounds 1 1) default)) ∧
      run.2.memory.scopes = start.memory.scopes := by
  intro turn loop start unit run
  -- the assignments go to frames that the loop has opened itself
  have hlocal : ∀ moment ∈ (Recorded.exec {} 10 .empty loop 0 0).record start, moment.IsLocal := by
    decide +kernel
  have hmoment : .executed ⟨10, .empty, 0, 0⟩ loop start run.1 run.2 ∈
      (unit.recorded {} 10).record start := by
    apply List.mem_of_getLast?
    simp only [unit, loop, turn, start, run]
    cbv
  refine ⟨by decide +kernel, ?_⟩
  exact local_writes_stay {} 10 unit (.ofList [("x", .int 5)]) {} .unlimited {} {} _ _ _ _ _ hmoment
    rfl hlocal

end Stencil
