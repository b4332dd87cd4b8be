import Stencil.Proofs.Render.Frames
import Stencil.Proofs.Render.Jumps
import Stencil.Proofs.Render.Simulation

/-!
# Included files run in place

An included file runs in a frame of its own, and no jump is pending behind it. For a file that
binds nothing in this frame and has no `#return`, neither makes a difference: to include it, without
assignments, is to run its statements where the `#include` stands.

* The two runs are a simulation. The frames of the run in the frame of its own are those of the run
  in place, with one more in between that stays empty (`Scopes.Gapped`). What the empty frame is
  asked for it passes on to the frame around it. Assignments to the nearest frame that has a name
  miss it, since it has none. The loops, calls and files inside have frames on top of it.
* A file that was parsed has its breaks and continues in loops, which take them up. So behind its
  statements no jump is pending when they have gone well, nor when they fail, since blocks and
  loops go on only while none is (`Recorded.Ends`).

Main definitions: `Scopes.Gapped`, `Recorded.Ends`.
Main statements: `Scopes.gapped_simulation`, `Recorded.Ends.exec`, `inclusion_in_place`.
-/

namespace Stencil

open Render

/-! ### Frames with a gap -/

section Options

variable {α α' β β' : Type} {r : α → β → Prop} {q : α' → β' → Prop} {a : Option α} {b : Option β}

/-- Related values go on with related values. -/
theorem rel_bind {f : α → Option α'} {g : β → Option β'} (h : Option.Rel r a b)
    (hfg : ∀ x y, r x y → Option.Rel q (f x) (g y)) : Option.Rel q (a.bind f) (b.bind g) := by
  cases h with
  | none => exact .none
  | some hxy => exact hfg _ _ hxy

/-- Related values are mapped to related values. -/
theorem rel_map {f : α → α'} {g : β → β'} (h : Option.Rel r a b)
    (hfg : ∀ x y, r x y → q (f x) (g y)) : Option.Rel q (a.map f) (b.map g) := by
  cases h with
  | none => exact .none
  | some hxy => exact .some (hfg _ _ hxy)

/-- Related values, or related defaults. -/
theorem rel_getD {d : α} {d' : β} (h : Option.Rel r a b) (hd : r d d') :
    r (a.getD d) (b.getD d') := by
  cases h with
  | none => exact hd
  | some hxy => exact hxy

/-- Related values go on with equal values. -/
theorem bind_eq_of_rel {f : α → Option α'} {g : β → Option α'} (h : Option.Rel r a b)
    (hfg : ∀ x y, r x y → f x = g y) : a.bind f = b.bind g := by
  cases h with
  | none => rfl
  | some hxy => exact hfg _ _ hxy

end Options

namespace Scopes

/-- Which frames of two runs correspond if the second has an empty frame `gap` more, opened in
`scope`: from this frame the second run sees what the first one sees from `scope`, and the frames
above it are shifted by one. -/
def across (scope gap : ScopeId) : Matching where
  sees i i' := (i = scope ∧ i' = gap) ∨ (gap ≤ i ∧ i' = i + 1)
  owns i i' := gap ≤ i ∧ i' = i + 1
  names _ := True
  sees_of_owns := .inr

/-- A frame of the first run, and the same frame in the second one. -/
def Same (gap i i' : Nat) : Prop := (i < gap ∧ i' = i) ∨ (gap ≤ i ∧ i' = i + 1)

/-- Frames are equal if the frames they are the same as are. -/
theorem Same.eq_iff {gap i i' j j' : Nat} (hi : Same gap i i') (hj : Same gap j j') :
    i = j ↔ i' = j' := by
  unfold Same at hi hj
  omega

/-- The gap is none of the frames of the first run. -/
theorem Same.ne_gap {gap i i' : Nat} (h : Same gap i i') : i' ≠ gap := by
  unfold Same at h
  omega

/-- Two frames bind the same, and their parents see the same. -/
structure Shifted (scope gap : ScopeId) (frame frame' : Frame) : Prop where
  bindings : frame.bindings = frame'.bindings
  parent : Option.Rel (across scope gap).sees frame.parent frame'.parent

/-- Two stacks of frames are the same but for an empty frame `gap` of the second, opened in `scope`,
and the numbers above it. -/
structure Gapped (scope gap : ScopeId) (s s' : Scopes) : Prop where
  outside : scope < gap
  room : gap ≤ s.frames.size
  size : s'.frames.size = s.frames.size + 1
  below : ∀ i < gap, s'.frames[i]? = s.frames[i]?
  empty : s'.frames[gap]? = some ⟨some scope, .empty⟩
  above : ∀ i, gap ≤ i → Option.Rel (Shifted scope gap) s.frames[i]? s'.frames[i + 1]?

/-- What is dropped makes the stack as high as the frame is. -/
theorem size_pop (s : Scopes) {scope : ScopeId} (h : 0 < scope) :
    (s.pop scope).frames.size = min scope s.frames.size := by
  unfold pop
  rw [if_pos h, Array.take_eq_extract, Array.size_extract, Nat.sub_zero]

/-- A binding changes the frame it is in. -/
theorem getElem?_bind (s : Scopes) (scope : ScopeId) (name : String) (value : Value)
    (i : ScopeId) :
    (s.bind scope name value).frames[i]? =
      if scope = i then
        s.frames[i]?.map fun frame => { frame with bindings := frame.bindings.insert name value }
      else s.frames[i]? :=
  Array.getElem?_modify

/-- A frame that is pushed comes last. -/
theorem getElem?_push (s : Scopes) (parent i : ScopeId) :
    (s.push parent).2.frames[i]? =
      if i = s.frames.size then some ⟨some parent, .empty⟩ else s.frames[i]? :=
  Array.getElem?_push

/-- The holder of a name is no frame above the one it is looked up from. -/
theorem holder?_le {s : Scopes} {scope holder : ScopeId} {name : String}
    (h : s.holder? scope name = some holder) : holder ≤ scope := by
  induction scope using Nat.strongRecOn with
  | _ scope ih =>
    rw [holder?_of_link] at h
    obtain ⟨parent, -, h⟩ := Option.bind_eq_some_iff.mp h
    split at h
    · exact Nat.le_of_eq (Option.some.inj h).symm
    · obtain ⟨i, -, h⟩ := Option.bind_eq_some_iff.mp h
      split at h
      next hlt => exact Nat.le_trans (ih i hlt h) (Nat.le_of_lt hlt)
      · cases h

namespace Gapped

variable {scope gap : ScopeId} {s s' : Scopes}

/-- A frame that has just been opened is a gap. -/
theorem of_push (h : scope < s.frames.size) :
    Gapped scope s.frames.size s (s.push scope).2 where
  outside := h
  room := Nat.le_refl _
  size := size_push s scope
  below i hi := by rw [getElem?_push, if_neg (Nat.ne_of_lt hi)]
  empty := by rw [getElem?_push, if_pos rfl]
  above i hi := by
    rw [getElem?_push, if_neg (Nat.ne_of_gt (Nat.lt_succ_of_le hi)), Array.getElem?_eq_none hi,
      Array.getElem?_eq_none (Nat.le_succ_of_le hi)]
    exact .none

variable (h : Gapped scope gap s s')

include h

/-! #### Lookups -/

/-- The slots of a frame are those of the same frame. -/
theorem slot {i i' : ScopeId} (hsame : Same gap i i') (name : String) :
    s.slot? i name = s'.slot? i' name := by
  unfold slot?
  rcases hsame with ⟨hi, rfl⟩ | ⟨hi, rfl⟩
  · rw [h.below i' hi]
  · exact bind_eq_of_rel (h.above i hi) fun frame frame' hframe =>
      congrArg (·.get? name) hframe.bindings

/-- Below the gap, names are held by the same frames. -/
theorem holder_below (name : String) {i : ScopeId} (hi : i < gap) :
    s'.holder? i name = s.holder? i name := by
  -- by induction on the frame: its parent is a lower one, and below the gap too
  induction i using Nat.strongRecOn with
  | _ i ih =>
    have hlink : s'.link? i = s.link? i := by
      unfold link?
      rw [h.below i hi]
    rw [holder?_of_link, holder?_of_link, hlink, h.slot (.inl ⟨hi, rfl⟩)]
    congr 1
    funext parent
    split
    · rfl
    · congr 1
      funext j
      split
      next hlt => exact ih j hlt (Nat.lt_trans hlt hi)
      · rfl

/-- The gap passes on what it is asked for. -/
theorem holder_gap (name : String) : s'.holder? gap name = s.holder? scope name := by
  have hlink : s'.link? gap = some (some scope) := by
    unfold link?
    rw [h.empty]
    rfl
  have hslot : s'.slot? gap name = none := by
    unfold slot?
    rw [h.empty]
    rfl
  rw [holder?_of_link, hlink, hslot, ← h.holder_below name h.outside]
  dsimp only [Option.bind_some, Option.isSome_none]
  rw [if_neg Bool.false_ne_true, if_pos h.outside]

/-- Frames that see the same find a name in the same frame. -/
theorem holder (name : String) {i i' : ScopeId} (hsees : (across scope gap).sees i i') :
    Option.Rel (Same gap) (s.holder? i name) (s'.holder? i' name) := by
  induction i using Nat.strongRecOn generalizing i' with
  | _ i ih =>
    rcases hsees with ⟨rfl, rfl⟩ | ⟨hi, rfl⟩
    · rw [h.holder_gap]
      cases hholder : s.holder? i name with
      | none => exact .none
      | some j => exact .some (.inl ⟨Nat.lt_of_le_of_lt (holder?_le hholder) h.outside, rfl⟩)
    · have hlink : Option.Rel (Option.Rel (across scope gap).sees) (s.link? i) (s'.link? (i + 1)) :=
        rel_map (h.above i hi) fun _ _ hframe => hframe.parent
      rw [holder?_of_link, holder?_of_link, ← h.slot (.inr ⟨hi, rfl⟩)]
      refine rel_bind hlink fun parent parent' hparent => ?_
      split
      · exact .some (.inr ⟨hi, rfl⟩)
      · refine rel_bind hparent fun j j' hj => ?_
        -- The parent is below the frame in both stacks, or in none of them.
        have hlt : j < i ↔ j' < i + 1 := by
          rcases hj with ⟨rfl, rfl⟩ | ⟨-, rfl⟩
          · exact iff_of_true (Nat.lt_of_lt_of_le h.outside hi) (Nat.lt_succ_of_le hi)
          · exact Nat.succ_lt_succ_iff.symm
        by_cases hji : j < i
        · rw [if_pos hji, if_pos (hlt.mp hji)]
          exact ih j hji hj
        · rw [if_neg hji, if_neg fun hji' => hji (hlt.mpr hji')]
          exact .none

/-- Frames that see the same read the same. -/
theorem get (shared : Assoc Value) (name : String) {i i' : ScopeId}
    (hsees : (across scope gap).sees i i') : s.get shared i name = s'.get shared i' name := by
  have hbinding : s.binding? i name = s'.binding? i' name := by
    rw [binding?_of_holder, binding?_of_holder]
    exact bind_eq_of_rel (h.holder name hsees) fun j j' hsame => h.slot hsame name
  unfold Scopes.get
  rw [hbinding]

/-! #### Changes -/

/-- A binding in the same frame keeps the gap empty. -/
theorem bind {i i' : ScopeId} (hsame : Same gap i i') (name : String) (value : Value) :
    Gapped scope gap (s.bind i name value) (s'.bind i' name value) := by
  have hsize (s : Scopes) (i : ScopeId) : (s.bind i name value).frames.size = s.frames.size :=
    Array.size_modify
  -- sizes do not change; below the gap, in it and above it frames are looked at one by one
  refine ⟨h.outside, ?_, ?_, fun j hj => ?_, ?_, fun j hj => ?_⟩
  · rw [hsize]
    exact h.room
  · rw [hsize, hsize, h.size]
  · rw [getElem?_bind, getElem?_bind, h.below j hj]
    simp only [hsame.eq_iff (.inl ⟨hj, rfl⟩)]
  · rw [getElem?_bind, if_neg hsame.ne_gap, h.empty]
  · have hiff := hsame.eq_iff (.inr ⟨hj, rfl⟩)
    rw [getElem?_bind, getElem?_bind]
    -- the frame of the binding corresponds to that of the other one, and all others are as they
    -- were
    by_cases hij : i = j
    · rw [if_pos hij, if_pos (hiff.mp hij)]
      refine rel_map (h.above j hj) fun frame frame' hframe => ⟨?_, hframe.parent⟩
      exact congrArg (·.insert name value) hframe.bindings
    · rw [if_neg hij, if_neg fun hij' => hij (hiff.mpr hij')]
      exact h.above j hj

/-- An assignment from corresponding frames goes to corresponding frames. -/
theorem set {policy : Policy} {i i' : ScopeId} (hsees : (across scope gap).sees i i')
    (howns : policy = .inner → (across scope gap).owns i i') (name : String) (value : Value) :
    Gapped scope gap (s.set policy i name value) (s'.set policy i' name value) := by
  have hroot : Same gap 0 0 := .inl ⟨Nat.zero_lt_of_lt h.outside, rfl⟩
  refine h.bind ?_ name value
  cases policy with
  | nearest => exact rel_getD (h.holder name hsees) hroot
  | inner => exact .inr (howns rfl)
  | root => exact hroot

/-- Frames that are pushed on both sides correspond. -/
theorem push {i i' : ScopeId} (hsees : (across scope gap).sees i i') :
    Gapped scope gap (s.push i).2 (s'.push i').2 := by
  refine ⟨h.outside, ?_, ?_, fun j hj => ?_, ?_, fun j hj => ?_⟩
  · rw [size_push]
    exact Nat.le_succ_of_le h.room
  · rw [size_push, size_push, h.size]
  · have hlt : j < s.frames.size := Nat.lt_of_lt_of_le hj h.room
    rw [getElem?_push, getElem?_push, h.size, if_neg (Nat.ne_of_lt hlt),
      if_neg (Nat.ne_of_lt (Nat.lt_succ_of_lt hlt)), h.below j hj]
  · rw [getElem?_push, h.size, if_neg (Nat.ne_of_lt (Nat.lt_succ_of_le h.room)), h.empty]
  · rw [getElem?_push, getElem?_push, h.size]
    -- the new frame comes last on both sides, one place later in the second
    by_cases hnew : j = s.frames.size
    · rw [if_pos hnew, if_pos (congrArg (· + 1) hnew)]
      exact .some ⟨rfl, .some hsees⟩
    · rw [if_neg hnew, if_neg fun hsucc => hnew (Nat.succ.inj hsucc)]
      exact h.above j hj

/-- Frames that correspond are dropped on both sides. -/
theorem pop {i i' : ScopeId} (howns : (across scope gap).owns i i') :
    Gapped scope gap (s.pop i) (s'.pop i') := by
  obtain ⟨hi, rfl⟩ := howns
  have hpos : 0 < i := Nat.lt_of_lt_of_le (Nat.zero_lt_of_lt h.outside) hi
  refine ⟨h.outside, ?_, ?_, fun j hj => ?_, ?_, fun j hj => ?_⟩
  · rw [size_pop s hpos]
    exact Nat.le_min.mpr ⟨hi, h.room⟩
  · rw [size_pop s hpos, size_pop s' (Nat.succ_pos i), h.size]
    exact Nat.succ_min_succ ..
  · have hji : j < i := Nat.lt_of_lt_of_le hj hi
    rw [getElem?_pop s hpos, getElem?_pop s' (Nat.succ_pos i), if_pos hji,
      if_pos (Nat.lt_succ_of_lt hji), h.below j hj]
  · rw [getElem?_pop s' (Nat.succ_pos i), if_pos (Nat.lt_succ_of_le hi), h.empty]
  · rw [getElem?_pop s hpos, getElem?_pop s' (Nat.succ_pos i)]
    by_cases hji : j < i
    · rw [if_pos hji, if_pos (Nat.succ_lt_succ hji)]
      exact h.above j hj
    · rw [if_neg hji, if_neg fun hji' => hji (Nat.lt_of_succ_lt_succ hji')]
      exact .none

/-- Without the gap and the frames above it, the second stack is the first. -/
theorem pop_gap (hsize : s.frames.size = gap) : s'.pop gap = s := by
  have hpos : 0 < gap := Nat.zero_lt_of_lt h.outside
  have hframes : (s'.pop gap).frames = s.frames := by
    apply Array.ext_getElem?
    intro i
    rw [getElem?_pop s' hpos]
    -- below the gap the frames agree, and from it on none is left
    split
    next hi => exact h.below i hi
    next hi =>
      rw [Array.getElem?_eq_none]
      rw [hsize]
      exact Nat.le_of_not_lt hi
  exact congrArg Scopes.mk hframes

end Gapped

/-- A frame that stays empty does not show. -/
theorem gapped_simulation (shared : Assoc Value) (scope gap : ScopeId) :
    Simulation shared (across scope gap) (·.Within (across scope gap).names)
      (Gapped scope gap) where
  reads := id
  get _ h hsees _ := h.get shared _ hsees
  set _ h hsees howns := h.set hsees howns _ _
  push h hsees := ⟨h.push hsees, h.room, h.size⟩
  pop h howns := h.pop howns

end Scopes

/-! ### Jumps -/

variable {α β : Type} {config : Config}

/-- From a pending jump as given, an action that goes well leaves a pending jump as given, and one
that fails leaves none. -/
structure Recorded.Ends (x : Recorded RenderState Stop α) (J : Jump → Prop)
    (K : α → Jump → Prop) : Prop where
  ok : ∀ st : RenderState, J st.memory.control.jump → ∀ a after, x.outcome st = (.ok a, after) →
    K a after.memory.control.jump
  error : ∀ st : RenderState, J st.memory.control.jump → ∀ stop after,
    x.outcome st = (.error stop, after) → after.memory.control.jump = .none

/-- What a statement leaves pending that may stand in a loop or not, and has no `#return`. -/
def Jump.Stays (inLoop : Bool) (jump : Jump) : Prop :=
  jump ≠ .return ∧ (inLoop = false → jump = .none)

namespace Recorded.Ends

variable {J : Jump → Prop} {K : α → Jump → Prop} {L : β → Jump → Prop}
  {x : Recorded RenderState Stop α} {f : α → Recorded RenderState Stop β}

/-- Less may be asked behind an action, and more before it. -/
theorem imp {J' : Jump → Prop} {K' : α → Jump → Prop} (h : x.Ends J K) (hJ : ∀ j, J' j → J j)
    (hK : ∀ a j, K a j → K' a j) : x.Ends J' K' where
  ok st hj a after hrun := hK _ _ (h.ok st (hJ _ hj) a after hrun)
  error st hj := h.error st (hJ _ hj)

/-- One action behind another. -/
theorem bind (hx : x.Ends J K) (hf : ∀ a, (f a).Ends (K a) L) : (x >>= f).Ends J L where
  ok st hj b after hrun := by
    rw [outcome_bind] at hrun
    -- a failure of the first is the failure of both, and leaves no jump
    rcases houtcome : x.outcome st with ⟨_ | a, mid⟩
    · rw [houtcome] at hrun
      cases hrun
    · rw [houtcome] at hrun
      exact (hf a).ok mid (hx.ok st hj a mid houtcome) b after hrun
  error st hj stop after hrun := by
    rw [outcome_bind] at hrun
    rcases houtcome : x.outcome st with ⟨_ | a, mid⟩
    · rw [houtcome] at hrun
      obtain ⟨-, rfl⟩ := Prod.mk.inj hrun
      exact hx.error st hj _ mid houtcome
    · rw [houtcome] at hrun
      exact (hf a).error mid (hx.ok st hj a mid houtcome) stop after hrun

/-- An action with a known outcome. -/
theorem of_outcome (h : ∀ st : RenderState, J st.memory.control.jump →
      ∃ a after, x.outcome st = (.ok a, after) ∧ K a after.memory.control.jump) : x.Ends J K where
  ok st hj a after hrun := by
    obtain ⟨a', after', houtcome, hk⟩ := h st hj
    obtain ⟨ha, rfl⟩ := Prod.mk.inj (houtcome.symm.trans hrun)
    exact Except.ok.inj ha ▸ hk
  error st hj stop after hrun := by
    obtain ⟨a', after', houtcome, -⟩ := h st hj
    exact nomatch (Prod.mk.inj (houtcome.symm.trans hrun)).1

/-- An action that leaves the pending jump alone. -/
theorem of_jump_eq
    (h : ∀ st, (x.outcome st).2.memory.control.jump = st.memory.control.jump) :
    x.Ends (· = .none) fun _ j => j = .none where
  ok st hj a after hrun := by
    have hjump := h st
    rw [hrun] at hjump
    exact hjump.trans hj
  error st hj stop after hrun := by
    have hjump := h st
    rw [hrun] at hjump
    exact hjump.trans hj

/-- Behind a body that jumps do not leave, none is pending, whatever happens in it. -/
theorem confined (parent : ScopeId) (x : ScopeId → Recorded RenderState Stop α) :
    (Recorded.confined parent x).Ends J fun _ j => j = .none where
  ok st _ a after hrun := by
    rw [outcome_confined] at hrun
    obtain ⟨-, rfl⟩ := Prod.mk.inj hrun
    rfl
  error st _ stop after hrun := by
    rw [outcome_confined] at hrun
    obtain ⟨-, rfl⟩ := Prod.mk.inj hrun
    rfl

/-- An action ends in a frame of its own as it ends by itself. -/
theorem inFrame {x : ScopeId → Recorded RenderState Stop α} (h : ∀ frame, (x frame).Ends J K)
    (parent : ScopeId) : (Recorded.inFrame parent x).Ends J K := by
  constructor
  · intro st hj a after hrun
    obtain ⟨inner, houtcome, rfl⟩ := inside_of_outcome_inFrame hrun
    exact (h _).ok (st.opened parent) hj a inner houtcome
  · intro st hj stop after hrun
    obtain ⟨inner, houtcome, rfl⟩ := inside_of_outcome_inFrame hrun
    exact (h _).error (st.opened parent) hj stop inner houtcome

/-- To note a moment changes nothing about how an action ends. -/
theorem noting {moment : RenderState → Except Stop α → RenderState → Moment} (h : x.Ends J K) :
    (Recorded.noting moment x).Ends J K := ⟨h.ok, h.error⟩

/-- What is known of a result is known of what follows. -/
theorem given {P : Prop} (h : P → x.Ends J K) : x.Ends (fun j => J j ∧ P) K where
  ok st hj := (h hj.2).ok st hj.1
  error st hj := (h hj.2).error st hj.1

/-- If no turn leaves a return pending, a loop takes everything up. -/
theorem jumpLogic (config : Config) :
    JumpLogic config (· ≠ .return) (· = .none) fun x J K => x.Ends J K where
  imp := imp
  bind := bind
  pure a _ := of_outcome fun st hj => ⟨a, st, rfl, hj⟩
  parts _ _ :=
    { evals := Steady.evalComposes config.host
      silent := fun h => of_jump_eq h.jump_eq
      bind := bind
      evalOuter := fun h => of_jump_eq fun st => h.jump st.memory
      evalTop := fun h => of_jump_eq fun st => h.jump st.memory
      bindName := fun _ _ => of_jump_eq fun _ => rfl }
  pending _ := of_outcome fun st hj => ⟨st.memory.control.jump, st, rfl, rfl, hj⟩
  takeLoopJump := by
    refine of_outcome fun st hj => ?_
    obtain ⟨⟨heap, scopes, kind, policy, nullSafe⟩, output, library, files⟩ := st
    -- a loop takes up a continue and a break, and no return reaches it
    cases kind with
    | none | «continue» => exact ⟨false, _, rfl, rfl, fun _ => rfl⟩
    | «break» => exact ⟨true, _, rfl, rfl, nofun⟩
    | «return» => exact absurd rfl hj
  behind_none := rfl

/-- Where no jump is pending, none is that may not stay. -/
theorem staying {inLoop : Bool} (h : x.Ends J fun _ j => j = .none) :
    x.Ends J fun _ j => j.Stays inLoop :=
  h.imp (fun _ => id) fun _ _ hj => ⟨hj ▸ nofun, fun _ => hj⟩

/-- **What is parsed takes up its jumps.** A statement that is entered with no jump pending, has its
breaks and continues in loops and has no custom directive and no `#return` in it, leaves no jump
pending when it fails, and outside of all loops none when it goes well. -/
theorem exec (config : Config) (fuel : Nat) (functions : Assoc TemplateFunction) {s : Statement}
    {inLoop : Bool} (hs : s.Contained inLoop) (hplain : s.isPlain) (scope : ScopeId) (loops : Nat) :
    (Recorded.exec config fuel functions s scope loops).Ends (· = .none)
      fun _ j => j.Stays inLoop := by
  have C := jumpLogic config
  -- By induction on the fuel: a statement runs the statements in it with less. What runs in calls,
  -- included and rendered files is of no interest.
  induction fuel generalizing s inLoop scope loops with
  | zero =>
    have hthrow : (Recorded.silent (throw .outOfFuel : Render Unit)).Ends (· = .none)
        fun _ j => j = .none := (C.parts scope scope).silent (.throw _)
    exact noting hthrow.staying
  | succ fuel ih =>
    have P := C.parts scope scope
    refine noting ?_
    cases hs with
    | nothing | definition => exact staying (P.pure ())
    | text content => exact staying (P.silent (.write content))
    | output value =>
      exact staying (bind (P.eval value) fun v => P.silent (.writeValue v))
    | condition test hyes hno =>
      obtain ⟨hyes', hno'⟩ := Statement.isPlain_condition.mp hplain
      refine bind (P.holds test) fun holds => ?_
      split
      · exact ih hyes hyes' scope loops
      · exact ih hno hno' scope loops
    | loop head hbody hotherwise =>
      obtain ⟨hbody', hotherwise'⟩ := Statement.isPlain_loop.mp hplain
      refine inFrame (fun frame => ?_) scope
      have turn := (ih hbody hbody' frame (loops + 1)).imp (fun _ => id) fun _ _ hj => hj.1
      refine bind (C.runLoop turn fuel head scope frame) fun ran => ?_
      split
      · exact staying ((P.pure ()).imp (fun _ hj => hj.1) fun _ _ => id)
      · exact (ih hotherwise hotherwise' frame loops).imp (fun _ hj => hj.1) fun _ _ => id
    | switch subject hcases hotherwise =>
      obtain ⟨hcases', hotherwise'⟩ := Statement.isPlain_switch.mp hplain
      refine bind (P.eval subject) fun v => ?_
      have hchosen := C.chooseCase (P := fun body => body.Contained inLoop ∧ body.isPlain)
        (fun values body hmem => ⟨hcases values body hmem, hcases' values body hmem⟩)
        ⟨hotherwise, hotherwise'⟩ scope v
      exact bind hchosen fun body => given fun hbody => ih hbody.1 hbody.2 scope loops
    | call callee args ifDefined location =>
      refine staying (bind (P.calleeName location callee) fun name => ?_)
      refine bind (P.silent (.findFunction functions name)) fun found => ?_
      split
      · exact bind (P.arguments _ args location) fun values => confined scope _
      · split
        · exact P.pure ()
        · exact P.silent (.throw _)
    | inlined assignments hbody => exact staying (confined scope _)
    | render file assignments site location =>
      exact staying (bind (P.silent (.rendered site file location)) fun unit => confined scope _)
    | assign policy assignments => exact staying (P.assigns policy assignments)
    | finish => exact absurd rfl (Statement.isPlain_jump.mp hplain)
    | jump kind =>
      exact of_outcome fun st _ => ⟨(), _, rfl, Statement.isPlain_jump.mp hplain, nofun⟩
    | custom => exact absurd hplain Bool.false_ne_true
    | block hstatements =>
      exact C.runBlock ⟨nofun, fun _ => rfl⟩ fun s hmem =>
        ih (hstatements s hmem) (Statement.isPlain_block.mp hplain s hmem) scope loops

end Recorded.Ends

/-! ### Included files -/

/-- A file that is included without assignments runs in a frame of its own, which is dropped behind
it with the jump that is pending. -/
theorem runOn_inlined_nil (config : Config) (fuel : Nat) (functions : Assoc TemplateFunction)
    (body : Statement) (scope : ScopeId) (st : RenderState) :
    ((Statement.inlined [] body).exec config (fuel + 1) functions scope).runOn st =
      let gap := st.memory.scopes.frames.size
      let inside := (body.exec config fuel functions gap).runOn (st.opened scope)
      (inside.1, ((setJump .none).runOn (inside.2.dropped gap)).2) := rfl

/-- Without the gap, and with no jump pending, the second state is the first. -/
theorem RenderState.Matches.dropped_gap {scope gap : ScopeId} {st st' : RenderState}
    (h : st.Matches (Scopes.Gapped scope gap) st') (hsize : st.memory.scopes.frames.size = gap)
    (hjump : st.memory.control.jump = .none) :
    ((setJump .none).runOn (st'.dropped gap)).2 = st := by
  have hscopes : st'.memory.scopes.pop gap = st.memory.scopes := h.memory.scopes.pop_gap hsize
  have hcontrol : ({ st'.memory.control with jump := .none } : Control) = st.memory.control := by
    rw [← h.memory.control, ← hjump]
  change RenderState.mk ⟨st'.memory.heap, st'.memory.scopes.pop gap,
    { st'.memory.control with jump := .none }⟩ st'.output st'.library st'.files = st
  rw [hscopes, hcontrol, ← h.memory.heap, ← h.output, ← h.library, ← h.files]

/-- Behind a statement that takes up its jumps none is pending, however it ends. -/
theorem Statement.Contained.jump_none {s : Statement} (hs : s.Contained false) (hplain : s.isPlain)
    (fuel : Nat) (functions : Assoc TemplateFunction) (scope : ScopeId) {st : RenderState}
    (hjump : st.memory.control.jump = .none) :
    ((s.exec config fuel functions scope).runOn st).2.memory.control.jump = .none := by
  have hends := Recorded.Ends.exec config fuel functions hs hplain scope 0
  have houtcome := (Recorded.exec_faithful config fuel functions s scope 0).outcome st
  rcases hrun : (s.exec config fuel functions scope).runOn st with ⟨_ | _, after⟩
  · exact hends.error st hjump _ after (houtcome.trans hrun)
  · exact (hends.ok st hjump _ after (houtcome.trans hrun)).2 rfl

/-- **Included files run in place.** Take a file that is parsed in the course of a parse, and in
which no assignment to the frame at hand, no custom directive and no `#return` stands; those of the
files that it includes itself do not matter. To include it without assignments has the same result
as to run its statements in the frame of the `#include`, and leaves the same state: the same output,
the same bindings in every frame, the same lists and maps, the same library and files, and the same
control state. So it is in all states in which statements are executed. -/
theorem inclusion_in_place {config : Config} {files : Files} {depth : Nat} {opened : List String}
    {source : Source} {draft draft' : Draft} {body : Statement}
    (hparse : parseFile config files depth opened source draft = .ok (body, draft'))
    (hplain : body.isPlain) (fuel : Nat) (functions : Assoc TemplateFunction) {scope : ScopeId}
    {st : RenderState} (hscope : scope < st.memory.scopes.frames.size)
    (hpolicy : st.memory.control.policy = .nearest) (hjump : st.memory.control.jump = .none) :
    ((Statement.inlined [] body).exec config (fuel + 1) functions scope).runOn st =
      (body.exec config fuel functions scope).runOn st := by
  let gap := st.memory.scopes.frames.size
  have hcontained : body.Contained false := (parseFile_contained hparse).1
  have S := Scopes.gapped_simulation config.host.objects scope gap
  have hopened : st.Matches (Scopes.Gapped scope gap) (st.opened scope) :=
    ⟨⟨rfl, .of_push hscope, rfl, hpolicy⟩, rfl, rfl, rfl⟩
  have hsees : (Scopes.across scope gap).sees scope gap := .inl ⟨rfl, rfl⟩
  obtain ⟨hresult, hafter⟩ := S.exec fuel functions body hsees (.inr hplain) hopened
    fun moment _ => moment.within fun _ => ⟨⟩
  -- Run in place, the statements leave as many frames as there were, and no jump pending.
  have hroot : st.memory.scopes.parents ≠ [] := by
    rw [← List.length_pos_iff, Scopes.length_parents]
    exact Nat.zero_lt_of_lt hscope
  have hskeleton := @Statement.exec_restores config fuel functions body scope st hroot
  have hsize := (Scopes.links_of_parents_eq (congrArg Skeleton.parents hskeleton)).1
  have hnone := @hcontained.jump_none config _ hplain fuel functions scope st hjump
  rw [runOn_inlined_nil]
  exact Prod.ext hresult.symm (hafter.dropped_gap hsize hnone)

/-- A file with a break in its loop, which counts in a variable of the frame around, gives it out
and fails at the end, included in the inner one of two frames. -/
theorem inclusion_in_place_break :
    let text := "#for(i : [1..3])#if(i == 2)#break#end#set(n = n + i)#(i)#end=#(n)#(nothing.field)"
    let st : RenderState :=
      ⟨⟨{}, ((Scopes.ofData (.ofList [("n", .int 5)])).push 0).2, {}⟩, .unlimited, {}, {}⟩
    ∃ r, parseFile {} {} 1 [] (.string text false) { nextSite := 0 } = .ok r ∧
      let included := ((Statement.inlined [] r.1).exec {} 20 .empty 1).runOn st
      included.1.isOk = false ∧ included.2.output.received = "1=6" ∧
        included = (r.1.exec {} 19 .empty 1).runOn st := by
  intro text st
  -- the parsed body is plain, and its run is evaluated
  have hrun : ∃ r ∈ (parseFile {} {} 1 [] (.string text false) { nextSite := 0 }).toOption,
      r.1.isPlain = true ∧
        (((Statement.inlined [] r.1).exec {} 20 .empty 1).runOn st).1.isOk = false ∧
        (((Statement.inlined [] r.1).exec {} 20 .empty 1).runOn st).2.output.received = "1=6" := by
    decide +kernel
  obtain ⟨r, hr, hplain, hfails, hreceived⟩ := hrun
  have hparse : parseFile {} {} 1 [] (.string text false) { nextSite := 0 } = .ok r := by
    cases hresult : parseFile {} {} 1 [] (.string text false) { nextSite := 0 } with
    | error e =>
      rw [hresult] at hr
      cases hr
    | ok r' =>
      rw [hresult] at hr
      exact congrArg Except.ok (Option.some.inj hr)
  exact ⟨r, hparse, hfails, hreceived,
    inclusion_in_place hparse hplain 19 .empty (by decide) rfl rfl⟩

end Stencil
