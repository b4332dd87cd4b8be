import Stencil.Proofs.Render.Composition
import Stencil.Proofs.Render.Invariant

/-!
# What evaluations and statements put back

Frames are opened and dropped by loops, calls, included and rendered files; the assignment policy
changes for the time of assignments, and reads of null are forgiven in the left operand of `??`.
Whatever ends such a block — its last statement, a jump, an error of an expression, of a host
operation, of a custom directive or of the output, or the end of the fuel — the frames, their parent
links, the policy and the null-safe flag are what they were before it.

* Parent links, policy and flag are the **skeleton** of a memory. Assignments change bindings only
  (`Scopes.parents_bind`), so they keep it.
* An evaluation keeps the skeleton, and the pending jump too (`Eval.Restores`).
* A statement keeps the skeleton wherever there is a frame `0` (`Render.Restores`). There always is
  one: frame `0` is never dropped, and the frame that a block drops is the one it has pushed.

Main definitions: `Memory.skeleton`, `Eval.Restores`, `Render.Restores`.
Main statements: `Expr.eval_restores`, `Statement.exec_restores`, `control_restored`.
-/

namespace Stencil

open Render

variable {α β : Type}

/-! ### Parent links -/

namespace Scopes

/-- The parent links of the frames, the outermost frame first. -/
def parents (s : Scopes) : List (Option ScopeId) := s.frames.toList.map (·.parent)

/-- Every frame has a parent, or is the root and has none. -/
theorem length_parents (s : Scopes) : s.parents.length = s.frames.size := by
  unfold parents
  rw [List.length_map, Array.length_toList]

/-- A binding changes no parent link. -/
@[simp] theorem parents_bind (s : Scopes) (scope : ScopeId) (name : String) (value : Value) :
    (s.bind scope name value).parents = s.parents := by
  unfold parents bind
  apply List.ext_getElem?
  intro i
  rw [List.getElem?_map, List.getElem?_map, Array.getElem?_toList, Array.getElem?_toList,
    Array.getElem?_modify]
  split
  · rw [Option.map_map]
    rfl
  · rfl

/-- An assignment opens no frame. -/
@[simp] theorem parents_set (s : Scopes) (policy : Policy) (scope : ScopeId) (name : String)
    (value : Value) : (s.set policy scope name value).parents = s.parents :=
  s.parents_bind _ name value

/-- A frame that is pushed comes last. -/
theorem parents_push (s : Scopes) (parent : ScopeId) :
    (s.push parent).2.parents = s.parents ++ [some parent] := by
  unfold parents push
  rw [Array.toList_push, List.map_append]
  rfl

/-- Dropping a frame drops its link and those above it, unless it is frame `0`. -/
theorem parents_pop (s : Scopes) {scope : ScopeId} (h : 0 < scope) :
    (s.pop scope).parents = s.parents.take scope := by
  unfold parents pop
  rw [if_pos h, Array.take_eq_extract, Array.toList_extract, List.extract_eq_take_drop,
    List.drop_zero, Nat.sub_zero, List.map_take]

/-- The parent link of a frame, if there is the frame. -/
def link? (s : Scopes) (scope : ScopeId) : Option (Option ScopeId) :=
  s.frames[scope]?.map (·.parent)

theorem getElem?_parents (s : Scopes) (scope : ScopeId) : s.parents[scope]? = s.link? scope := by
  unfold parents link?
  rw [List.getElem?_map, Array.getElem?_toList]

/-- Where the parent links are the same, so are their number and each of them. -/
theorem links_of_parents_eq {s s' : Scopes} (h : s.parents = s'.parents) :
    s.frames.size = s'.frames.size ∧ ∀ i, s.link? i = s'.link? i := by
  refine ⟨?_, fun i => ?_⟩
  · rw [← s.length_parents, h, s'.length_parents]
  · rw [← s.getElem?_parents, h, s'.getElem?_parents]

end Scopes

/-- What a block puts back: the parent links of the frames, the policy, and the null-safe flag. -/
structure Skeleton where
  parents : List (Option ScopeId)
  policy : Policy
  nullSafe : Bool
deriving DecidableEq, Repr

/-- The skeleton of a memory. -/
def Memory.skeleton (m : Memory) : Skeleton :=
  ⟨m.scopes.parents, m.control.policy, m.control.nullSafe⟩

/-- An opened frame adds its link. -/
theorem RenderState.skeleton_opened (st : RenderState) (parent : ScopeId) :
    (st.opened parent).memory.skeleton =
      { st.memory.skeleton with parents := st.memory.skeleton.parents ++ [some parent] } := by
  unfold Memory.skeleton
  rw [show (st.opened parent).memory.scopes.parents = _ from st.memory.scopes.parents_push parent]
  rfl

/-- A dropped frame takes its link away, and those above it. -/
theorem RenderState.skeleton_dropped (st : RenderState) {frame : ScopeId} (h : 0 < frame) :
    (st.dropped frame).memory.skeleton =
      { st.memory.skeleton with parents := st.memory.skeleton.parents.take frame } := by
  unfold Memory.skeleton
  rw [show (st.dropped frame).memory.scopes.parents = _ from st.memory.scopes.parents_pop h]
  rfl

/-! ### Evaluations -/

/-- An evaluation leaves the parent links and the whole control state as they were. -/
def Eval.Restores (act : Eval α) : Prop :=
  ∀ m, (act.runOn m).2.scopes.parents = m.scopes.parents ∧ (act.runOn m).2.control = m.control

/-- An evaluation goes on with the result of the one before it, if there is one. -/
theorem Eval.runOn_bind (x : Eval α) (f : α → Eval β) (m : Memory) :
    (x >>= f).runOn m =
      match x.runOn m with
      | (.ok a, after) => (f a).runOn after
      | (.error error, after) => (.error error, after) := by
  change (match x m with | (result, after) => ExceptT.bindCont f result after) = _
  change _ = match x m with
    | (.ok a, after) => (f a) after
    | (.error error, after) => (.error error, after)
  rcases x m with ⟨_ | _, _⟩ <;> rfl

namespace Eval.Restores

/-- What restores goes on with what restores. -/
theorem bind {x : Eval α} {f : α → Eval β} (hx : Restores x) (hf : ∀ a, Restores (f a)) :
    Restores (x >>= f) := by
  intro m
  rw [runOn_bind]
  have hafter := hx m
  rcases hrun : x.runOn m with ⟨_ | a, after⟩
  · rw [hrun] at hafter
    exact hafter
  · rw [hrun] at hafter
    obtain ⟨hparents, hcontrol⟩ := hf a after
    exact ⟨hparents.trans hafter.1, hcontrol.trans hafter.2⟩

/-- A quiet step changes nothing but the heap. -/
theorem quiet {act : Eval α} (h : act.Quiet) : Restores act := by
  induction h with
  | pure a => exact fun _ => ⟨rfl, rfl⟩
  | throw error => exact fun _ => ⟨rfl, rfl⟩
  | memory => exact fun _ => ⟨rfl, rfl⟩
  | onHeap f => exact fun _ => ⟨rfl, rfl⟩
  | bind _ _ hx hf => exact bind hx hf

/-! Variables are read without a trace, and assignments change bindings only. -/

/-- The read of a variable restores. -/
theorem lookup (host : Host) (scope : ScopeId) (name : String) :
    Restores (lookup host scope name) := fun _ => ⟨rfl, rfl⟩

theorem assign (scope : ScopeId) (name : String) (value : Value) :
    Restores (assign scope name value) :=
  fun m => ⟨m.scopes.parents_set m.control.policy scope name value, rfl⟩

/-! What installs a piece of control state takes it back. -/

/-- So does what restores, with reads of null forgiven. -/
theorem withNullSafe {act : Eval α} (h : Restores act) : Restores (withNullSafe act) := by
  intro m
  obtain ⟨hparents, hcontrol⟩ := h { m with control := { m.control with nullSafe := true } }
  refine ⟨hparents, ?_⟩
  change ({ (act.runOn _).2.control with nullSafe := m.control.nullSafe } : Control) = m.control
  rw [hcontrol]

/-- So it does under another policy, which is put back. -/
theorem withPolicy {act : Eval α} (policy : Policy) (h : Restores act) :
    Restores (withPolicy policy act) := by
  intro m
  obtain ⟨hparents, hcontrol⟩ := h { m with control := { m.control with policy } }
  refine ⟨hparents, ?_⟩
  change ({ (act.runOn _).2.control with policy := m.control.policy } : Control) = m.control
  rw [hcontrol]

/-- Evaluations restore by their rules. -/
theorem evalComposes (host : Host) (scope : ScopeId) :
    EvalComposes host scope fun _ act => act.Restores where
  silent := quiet
  bind := bind
  lookup := lookup host scope
  assign := assign scope
  withNullSafe := withNullSafe
  withPolicy policy _ _ := withPolicy policy
  noting := id

end Eval.Restores

/-- An expression leaves frames and control state as they were, whatever ends its evaluation. -/
theorem Expr.eval_restores (host : Host) (scope : ScopeId) (e : Expr) :
    (e.eval host scope).Restores := (Eval.Restores.evalComposes host scope).eval e

/-! ### Statements -/

/-- An action of a render leaves the skeleton as it was, where there is a frame `0`. -/
def Render.Restores (act : Render α) : Prop :=
  ∀ st : RenderState, st.memory.scopes.parents ≠ [] →
    (act.runOn st).2.memory.skeleton = st.memory.skeleton

/-- Where the skeleton is as it was, there is a frame `0` if there was one. -/
theorem parents_ne_nil_of_skeleton_eq {m m' : Memory} (h : m'.skeleton = m.skeleton)
    (hroot : m.scopes.parents ≠ []) : m'.scopes.parents ≠ [] := by
  have hparents : m'.scopes.parents = m.scopes.parents := congrArg Skeleton.parents h
  rw [hparents]
  exact hroot

namespace Render.Restores

/-- Likewise for runs: what restores goes on with what restores. -/
theorem bind {x : Render α} {f : α → Render β} (hx : Restores x) (hf : ∀ a, Restores (f a)) :
    Restores (x >>= f) := by
  intro st hroot
  rw [runOn_bind]
  have hafter := hx st hroot
  rcases hrun : x.runOn st with ⟨_ | a, after⟩
  · rw [hrun] at hafter
    exact hafter
  · rw [hrun] at hafter
    exact (hf a after (parents_ne_nil_of_skeleton_eq hafter hroot)).trans hafter

/-- An action restores what an action restores that leaves the same memory. -/
theorem of_memory_eq {x : Render α} {y : Render β} (hx : Restores x)
    (h : ∀ st, (y.runOn st).2.memory = (x.runOn st).2.memory) : Restores y := by
  intro st hroot
  rw [h]
  exact hx st hroot

/-- An evaluation that restores is a run that restores. -/
theorem ofEval {act : Eval α} (h : act.Restores) : Restores (ofEval act) := by
  intro st _
  obtain ⟨hparents, hcontrol⟩ := h st.memory
  change (act.runOn st.memory).2.skeleton = st.memory.skeleton
  unfold Memory.skeleton
  rw [hparents, hcontrol]

/-- A binding changes bindings only. -/
theorem bindName (scope : ScopeId) (name : String) (value : Value) :
    Restores (Render.bind scope name value) := by
  intro st _
  unfold Memory.skeleton
  change Skeleton.mk (st.memory.scopes.bind scope name value).parents _ _ = _
  rw [Scopes.parents_bind]
  rfl

/-- An attempt restores, for an error changes nothing about the state. -/
theorem attempt {act : Render α} (h : Restores act) : Restores (attempt act) := by
  refine of_memory_eq h fun st => ?_
  rw [runOn_attempt]
  rcases act.runOn st with ⟨(_ | _ | _) | _, _⟩ <;> rfl

/-- A captured body restores, for only its output is another one. -/
theorem captured {act : Render Unit} (h : Restores act) : Restores (captured act) :=
  fun st hroot => h { st with output := .unlimited } hroot

/-- The frame that an action gets is dropped behind it, however the action ends: its number is the
number of the frames below it. -/
theorem inFrame {act : ScopeId → Render α} (h : ∀ frame, Restores (act frame)) (parent : ScopeId) :
    Restores (inFrame parent act) := by
  intro st hroot
  have hlength : st.memory.skeleton.parents.length = st.memory.scopes.frames.size :=
    st.memory.scopes.length_parents
  have hsize : 0 < st.memory.scopes.frames.size := by
    rw [← hlength]
    exact List.length_pos_iff.mpr hroot
  -- the new frame has a parent, so there are frames behind the opening too
  have hopened : (st.opened parent).memory.scopes.parents ≠ [] := by
    rw [show (st.opened parent).memory.scopes.parents = _ from st.memory.scopes.parents_push parent]
    exact List.append_ne_nil_of_right_ne_nil _ (List.cons_ne_nil _ _)
  rw [runOn_inFrame]
  dsimp only
  rw [RenderState.skeleton_dropped _ hsize, h _ _ hopened, RenderState.skeleton_opened]
  dsimp only
  rw [List.take_left' hlength]

/-- A confined action restores and forgets its jump. -/
theorem confined {act : ScopeId → Render α} (h : ∀ frame, Restores (act frame)) (parent : ScopeId) :
    Restores (confined parent act) := fun st hroot => inFrame h parent st hroot

/-- A quiet action leaves parent links, policy and flag alone. -/
-- by cases on the kind of action: only `bind` has parts of its own
theorem quiet {config : Config} {act : Render α} (h : Render.Quiet config act) : Restores act := by
  induction h with
  | pure | throw | heap | onHeap | updateHeap | jump | write | flush | rendered =>
    exact fun _ _ => rfl
  | writeValue v => exact fun _ _ => rfl
  | attempt _ hact => exact attempt hact
  | findFunction functions name =>
    unfold Config.findFunction
    split
    · exact fun _ _ => rfl
    · exact fun _ _ => rfl
  | bind _ _ hx hf => exact bind hx hf

/-- A jump statement changes nothing but the jump. -/
theorem setJump (kind : Jump) : Restores (setJump kind) := fun _ _ => rfl

/-- A loop that takes up a jump changes nothing but the jump. -/
theorem takeLoopJump : Restores takeLoopJump := by
  refine bind (fun _ _ => rfl : Restores jump) fun kind => ?_
  cases kind with
  | none | «return» => exact fun _ _ => rfl
  | «continue» | «break» => exact bind (setJump _) fun _ _ _ => rfl

/-- Runs restore by their rules. -/
theorem runComposes (config : Config) :
    RunComposes config (fun _ _ _ act => act.Restores) (fun _ _ _ _ act => act.Restores) where
  parts _ top :=
    { evals := Eval.Restores.evalComposes config.host
      silent := quiet
      bind := bind
      evalTop := ofEval
      evalOuter := ofEval
      bindName := bindName top }
  setJump := setJump
  takeLoopJump := takeLoopJump
  attempt := attempt
  captured := captured
  inFrame h := inFrame h _
  confined h := confined h _
  noting _ := id
  directed _ result := quiet (@Quiet.ofExcept config _ result)

end Render.Restores

/-- **Statements put back what they change.** However a statement ends, the parent links of the
frames, the policy and the null-safe flag are as they were. -/
theorem Statement.exec_restores {config : Config} (fuel : Nat)
    (functions : Assoc TemplateFunction) (statement : Statement) (scope : ScopeId) :
    (statement.exec config fuel functions scope).Restores :=
  (Render.Restores.runComposes config).exec fuel functions statement scope scope 0

/-- **Control state is restored on every exit.** Take any statement, in any frame and any state in
which there is a frame `0`. However its execution ends, the number of frames, their parent links,
the assignment policy and the null-safe flag are what they were. The evaluation of an expression
leaves the pending jump alone too. -/
theorem control_restored (config : Config) :
    (∀ (fuel : Nat) (functions : Assoc TemplateFunction) (statement : Statement) (scope : ScopeId)
      (st after : RenderState) (result : Except Stop Unit), 0 < st.memory.scopes.frames.size →
      (statement.exec config fuel functions scope).runOn st = (result, after) →
        after.memory.scopes.frames.size = st.memory.scopes.frames.size ∧
        (∀ i, after.memory.scopes.link? i = st.memory.scopes.link? i) ∧
        after.memory.control.policy = st.memory.control.policy ∧
        after.memory.control.nullSafe = st.memory.control.nullSafe) ∧
    ∀ (e : Expr) (scope : ScopeId) (m after : Memory) (result : Except Error Value),
      (e.eval config.host scope).runOn m = (result, after) →
        after.scopes.frames.size = m.scopes.frames.size ∧
        (∀ i, after.scopes.link? i = m.scopes.link? i) ∧
        after.control.policy = m.control.policy ∧
        after.control.nullSafe = m.control.nullSafe ∧
        after.control.jump = m.control.jump := by
  -- a statement leaves the skeleton as it is, and an expression the jump as well
  constructor
  · intro fuel functions statement scope st after result hsize hrun
    have hroot : st.memory.scopes.parents ≠ [] := by
      rwa [← List.length_pos_iff, Scopes.length_parents]
    have hskeleton : after.memory.skeleton = st.memory.skeleton := by
      have hrestores := @Statement.exec_restores config fuel functions statement scope st hroot
      rwa [hrun] at hrestores
    -- equal parents mean as many frames, with the same links
    obtain ⟨hcount, hlinks⟩ := Scopes.links_of_parents_eq (congrArg Skeleton.parents hskeleton)
    exact ⟨hcount, hlinks, congrArg Skeleton.policy hskeleton,
      congrArg Skeleton.nullSafe hskeleton⟩
  · intro e scope m after result hrun
    obtain ⟨hparents, hcontrol⟩ : after.scopes.parents = m.scopes.parents ∧
        after.control = m.control := by
      have hrestores := e.eval_restores config.host scope m
      rwa [hrun] at hrestores
    obtain ⟨hcount, hlinks⟩ := Scopes.links_of_parents_eq hparents
    rw [hcontrol]
    exact ⟨hcount, hlinks, rfl, rfl, rfl⟩

/-- A loop whose body fails in the middle of an assignment to frame `0`: the error leaves the policy
of the assignment, the frame of the loop and the loop itself behind. -/
theorem control_restored_failed_body :
    let failing : Statement :=
      .assign .root [.assign "x" (.field (.const .null) "y" default) default]
    let loop : Statement := .loop (.counting [] none []) failing .nothing
    let start : RenderState := ⟨⟨{}, .ofData .empty, {}⟩, .unlimited, {}, {}⟩
    let run := (loop.exec {} 3 .empty 0).runOn start
    run.1 = .error (.error (.template (.fieldOfNull "y") default)) ∧
      run.2.memory.scopes.frames.size = 1 ∧ run.2.memory.control.policy = .nearest := by
  intro failing loop start run
  obtain ⟨hsize, -, hpolicy, -⟩ :=
    (control_restored {}).1 3 .empty loop 0 start run.2 run.1 Nat.one_pos rfl
  exact ⟨by with_unfolding_all rfl, hsize, hpolicy⟩

end Stencil
