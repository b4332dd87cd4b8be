import Mathlib
import Stencil.Proofs.Render.Jumps

/-!
# What failures leave pending

A loop takes up the jump that its body leaves pending, but an error ends the loop before it gets to
that. So whether a jump is pending behind a loop that fails is a matter of where the error comes
from. In expressions, in the output and in the fuel no jump is pending when they fail, since blocks
and loops go on only while none is; and calls, included and rendered files take every jump up,
however they end (`Statement.TakesJumps.failed_jump`). What is left are custom directives: one that
fails when a rendering of its body has left a jump pending passes the error on with this jump.

The record of a run tells the directives that an error came out of from those whose errors were
dealt with (`carried`), and behind a statement that fails is pending what the last of these
directives left pending (`Recorded.Carries.exec`).

Main definitions: `carried`, `Recorded.Carries`.
Main statements: `Statement.TakesJumps.failed_jump`, `failed_loop_jump`.
-/

namespace Stencil

open Render

variable {α β : Type} {config : Config}

/-- A noted action has its moment at the end of its record. -/
theorem Recorded.record_noting {σ ε : Type} (moment : σ → Except ε α → σ → Moment)
    (x : Recorded σ ε α) (s : σ) :
    (noting moment x).record s = x.record s ++ [moment s (x.outcome s).1 (x.outcome s).2] := rfl

/-- A statement has its moment at the end of its record. -/
theorem Recorded.exec_noting (config : Config) (fuel : Nat) (functions : Assoc TemplateFunction)
    (s : Statement) (scope : ScopeId) (loops : Nat) :
    ∃ x, Recorded.exec config fuel functions s scope loops =
      noting (.executed ⟨fuel, functions, scope, loops⟩ s) x := by
  cases fuel with
  | zero | succ => exact ⟨_, rfl⟩

/-! ### The jump that comes with an error -/

/-- The jump that is pending when an error has come out of a statement, if it came out of the one
inside with a given jump pending. An error comes out of a custom directive with what the directive
leaves pending, and out of a call, an included or a rendered file with nothing. If the statement has
gone well, nothing comes out of it. -/
def Moment.carry (jump : Jump) : Moment → Jump
  | .executed _ s _ (.error _) after =>
    match s with
    | .custom .. => after.memory.control.jump
    | .call .. | .inlined .. | .render .. => .none
    | _ => jump
  | .executed _ _ _ (.ok _) _ => .none
  | _ => jump

/-- The jump that comes with the error of a run: what the last custom directive that it came out of
left pending. Nothing comes with an error that came out of no directive, or that has come out of a
call, an included or a rendered file since. -/
def carried (record : List Moment) : Jump := record.foldl Moment.carry .none

/-- If nothing is carried so far, what is carried in the end is carried by what comes behind. -/
theorem carried_append {record : List Moment} (h : carried record = .none) (more : List Moment) :
    carried (record ++ more) = carried more := by
  unfold carried at h ⊢
  rw [List.foldl_append, h]

/-- The last moment changes what is carried by all before it. -/
theorem carried_concat (record : List Moment) (moment : Moment) :
    carried (record ++ [moment]) = moment.carry (carried record) := by
  unfold carried
  rw [List.foldl_append]
  rfl

/-- A custom directive that fails leaves no jump pending. -/
def Moment.Tidy : Moment → Prop
  | .executed _ (.custom ..) _ (.error _) after => after.memory.control.jump = .none
  | _ => True

/-- Nothing is carried behind a tidy moment that carries nothing before. -/
theorem Moment.Tidy.carry_none {moment : Moment} (h : moment.Tidy) :
    moment.carry .none = .none := by
  cases moment with
  | executed place s before result after =>
    cases result with
    | ok => rfl
    | error stop =>
      cases s with
      | custom => exact h
      | _ => rfl
  | _ => rfl

/-- Nothing comes with an error if no directive that fails leaves a jump pending. -/
theorem carried_of_tidy {record : List Moment} (h : ∀ moment ∈ record, moment.Tidy) :
    carried record = .none := by
  induction record with
  | nil => rfl
  | cons moment rest ih =>
    obtain ⟨hhere, hrest⟩ := List.forall_mem_cons.mp h
    have hmoment : carried [moment] = .none := hhere.carry_none
    exact (carried_append hmoment rest).trans (ih hrest)

/-- What has gone well is tidy. -/
theorem Moment.Settled.tidy {moment : Moment} (h : moment.Settled) : moment.Tidy := by
  cases moment with
  | executed place s before result after =>
    obtain ⟨rfl, -⟩ := h
    cases s <;> exact ⟨⟩
  | _ => exact ⟨⟩

/-! ### Actions that execute no statement -/

/-- An action leaves the pending jump alone and runs no statement. -/
structure Recorded.Inert (x : Recorded RenderState Stop α) : Prop where
  jump : ∀ st, (x.outcome st).2.memory.control.jump = st.memory.control.jump
  settled : ∀ st, ∀ moment ∈ x.record st, moment.Settled

namespace Recorded.Inert

theorem quiet {act : Render α} (h : Render.Quiet config act) : (Recorded.silent act).Inert :=
  ⟨h.jump_eq, fun _ => List.forall_mem_nil _⟩

/-- Inert actions go on with inert actions. -/
theorem bind {x : Recorded RenderState Stop α} {f : α → Recorded RenderState Stop β} (hx : x.Inert)
    (hf : ∀ a, (f a).Inert) : (x >>= f).Inert where
  jump := outcome_bind_same (fun st : RenderState => st.memory.control.jump) hx.jump
    fun a => (hf a).jump
  settled st := forall_record_bind (hx.settled st) fun a after _ => (hf a).settled after

/-- A steady evaluation is inert. -/
theorem ofEval {x : Recorded Memory Error α} (h : x.Steady) : (Recorded.ofEval x).Inert :=
  ⟨fun st => h.jump st.memory, fun st => h.settled st.memory⟩

theorem bindName (scope : ScopeId) (name : String) (value : Value) :
    (Recorded.bindName scope name value).Inert :=
  ⟨fun _ => rfl, fun _ => List.forall_mem_singleton.mpr ⟨⟩⟩

/-- The parts of statements leave the pending jump alone and run no statement. -/
theorem partsCompose (config : Config) (outer top : ScopeId) :
    PartsCompose config outer top (fun _ _ x _ => x.Steady) (fun x _ => x.Inert) where
  evals := Steady.evalComposes config.host
  silent := quiet
  bind := bind
  evalTop := ofEval
  evalOuter := ofEval
  bindName := bindName top

end Recorded.Inert

/-! ### Statements that take jumps up -/

/-- From no pending jump an action leads to none, however it ends. -/
def Recorded.Lands (x : Recorded RenderState Stop α) : Prop :=
  ∀ st : RenderState, st.memory.control.jump = .none →
    (x.outcome st).2.memory.control.jump = .none

namespace Recorded.Lands

/-- An inert action lands. -/
theorem inert {x : Recorded RenderState Stop α} (h : x.Inert) : x.Lands :=
  fun st hj => (h.jump st).trans hj

/-- Actions that land go on with actions that land. -/
theorem bind {x : Recorded RenderState Stop α} {f : α → Recorded RenderState Stop β} (hx : x.Lands)
    (hf : ∀ a, (f a).Lands) : (x >>= f).Lands := by
  intro st hj
  have hmid := hx st hj
  rw [outcome_bind]
  rcases houtcome : x.outcome st with ⟨_ | a, mid⟩
  · rwa [houtcome] at hmid
  · rw [houtcome] at hmid
    exact hf a mid hmid

/-- A confined action lands, for it forgets its jump. -/
theorem confined (parent : ScopeId) (x : ScopeId → Recorded RenderState Stop α) :
    (Recorded.confined parent x).Lands := fun _ _ => rfl

end Recorded.Lands

/-! ### Actions that carry jumps with their errors -/

/-- From a pending jump as given, an action that goes well leaves a pending jump as given, and no
error comes out of it; and if it fails, the pending jump is the one that comes with the error. -/
structure Recorded.Carries (x : Recorded RenderState Stop α) (J : Jump → Prop)
    (K : α → Jump → Prop) : Prop where
  ok : ∀ st : RenderState, J st.memory.control.jump → ∀ a after, x.outcome st = (.ok a, after) →
    K a after.memory.control.jump ∧ carried (x.record st) = .none
  error : ∀ st : RenderState, J st.memory.control.jump → ∀ stop after,
    x.outcome st = (.error stop, after) → after.memory.control.jump = carried (x.record st)

namespace Recorded.Carries

variable {J J' : Jump → Prop} {K : α → Jump → Prop} {L : β → Jump → Prop}
  {x : Recorded RenderState Stop α} {f : α → Recorded RenderState Stop β}

/-- Less may be asked behind an action, and more before it. -/
theorem imp {K' : α → Jump → Prop} (h : x.Carries J K) (hJ : ∀ j, J' j → J j)
    (hK : ∀ a j, K a j → K' a j) : x.Carries J' K' where
  ok st hj a after hrun := (h.ok st (hJ _ hj) a after hrun).imp_left (hK _ _)
  error st hj := h.error st (hJ _ hj)

/-- What is known of the pending jump behind an action that goes well may be left open. -/
theorem forget (h : x.Carries J K) : x.Carries J fun _ _ => True :=
  h.imp (fun _ => id) fun _ _ _ => ⟨⟩

/-- One action behind another: an error of the second carries what the second carries. -/
theorem bind (hx : x.Carries J K) (hf : ∀ a, (f a).Carries (K a) L) : (x >>= f).Carries J L where
  ok st hj b after hrun := by
    rw [outcome_bind] at hrun
    rw [record_bind]
    -- if the first fails, its record is the whole record
    rcases houtcome : x.outcome st with ⟨_ | a, mid⟩
    · rw [houtcome] at hrun
      cases hrun
    · rw [houtcome] at hrun
      obtain ⟨hk, hnone⟩ := hx.ok st hj a mid houtcome
      obtain ⟨hl, hlater⟩ := (hf a).ok mid hk b after hrun
      exact ⟨hl, (carried_append hnone _).trans hlater⟩
  error st hj stop after hrun := by
    rw [outcome_bind] at hrun
    rw [record_bind]
    rcases houtcome : x.outcome st with ⟨_ | a, mid⟩
    · rw [houtcome] at hrun
      obtain ⟨-, rfl⟩ := Prod.mk.inj hrun
      exact hx.error st hj _ mid houtcome
    · rw [houtcome] at hrun
      -- the first has gone well and carries nothing, so what the second carries is all
      obtain ⟨hk, hnone⟩ := hx.ok st hj a mid houtcome
      exact ((hf a).error mid hk stop after hrun).trans (carried_append hnone _).symm

/-- A value carries nothing. -/
theorem pure (a : α) (h : ∀ j, J j → K a j) :
    (pure a : Recorded RenderState Stop α).Carries J K where
  ok := by
    rintro st hj _ _ ⟨⟩
    exact ⟨h _ hj, rfl⟩
  error := by
    rintro st hj _ _ ⟨⟩

/-- An action that cannot fail, and in which nothing of note happens. -/
theorem silent {act : Render α} (h : ∀ st : RenderState, J st.memory.control.jump →
      ∃ a after, act.runOn st = (.ok a, after) ∧ K a after.memory.control.jump) :
    (Recorded.silent act).Carries J K where
  ok st hj a after hrun := by
    obtain ⟨a', after', hact, hk⟩ := h st hj
    obtain ⟨ha, rfl⟩ := Prod.mk.inj (hact.symm.trans hrun)
    obtain rfl := Except.ok.inj ha
    exact ⟨hk, rfl⟩
  error st hj stop after hrun := by
    obtain ⟨a', after', hact, -⟩ := h st hj
    exact nomatch (Prod.mk.inj (hact.symm.trans hrun)).1

/-- What executes no statement leaves no jump pending where none was. -/
theorem inert (h : x.Inert) : x.Carries (· = .none) fun _ j => j = .none := by
  -- Nothing in the record fails, so nothing comes out of it.
  have hnone (st : RenderState) : carried (x.record st) = .none :=
    carried_of_tidy fun moment hmem => (h.settled st moment hmem).tidy
  constructor
  · intro st hj a after hrun
    have hjump := h.jump st
    rw [hrun] at hjump
    exact ⟨hjump.trans hj, hnone st⟩
  · intro st hj stop after hrun
    have hjump := h.jump st
    rw [hrun] at hjump
    exact (hjump.trans hj).trans (hnone st).symm

/-- A frame is no matter to jumps. -/
theorem inFrame {x : ScopeId → Recorded RenderState Stop α} (h : ∀ frame, (x frame).Carries J K)
    (parent : ScopeId) : (Recorded.inFrame parent x).Carries J K := by
  constructor
  · intro st hj a after hrun
    obtain ⟨inner, houtcome, rfl⟩ := inside_of_outcome_inFrame hrun
    exact (h _).ok (st.opened parent) hj a inner houtcome
  · intro st hj stop after hrun
    obtain ⟨inner, houtcome, rfl⟩ := inside_of_outcome_inFrame hrun
    exact (h _).error (st.opened parent) hj stop inner houtcome

/-- The pending jump is what is read. -/
theorem pending (J : Jump → Prop) :
    (Recorded.silent jump).Carries J fun kind j => kind = j ∧ J j :=
  silent fun st hj => ⟨st.memory.control.jump, st, rfl, rfl, hj⟩

/-- A loop goes on only if no jump is pending any more. -/
theorem takeLoopJump (J : Jump → Prop) :
    (Recorded.silent takeLoopJump).Carries J
      fun isOver j => True ∧ (isOver = false → j = .none) := by
  refine silent fun st _ => ?_
  obtain ⟨⟨heap, scopes, kind, policy, nullSafe⟩, output, library, files⟩ := st
  cases kind with
  | none | «continue» => exact ⟨false, _, rfl, ⟨⟩, fun _ => rfl⟩
  | «break» | «return» => exact ⟨true, _, rfl, ⟨⟩, nofun⟩

/-- Nothing is said of what a loop leaves pending if its body ran. -/
theorem jumpLogic (config : Config) :
    JumpLogic config (fun _ => True) (fun _ => True) fun x J K => x.Carries J K where
  imp := imp
  bind := bind
  pure a _ := pure a fun _ => id
  -- the parts of statements are inert, so they carry nothing and change no jump
  parts outer top :=
    have C := Inert.partsCompose config outer top
    { evals := C.evals
      silent := fun h => inert (C.silent h)
      bind := bind
      evalOuter := fun h => inert (.ofEval h)
      evalTop := fun h => inert (.ofEval h)
      bindName := fun name value => inert (C.bindName name value) }
  pending := pending
  takeLoopJump := takeLoopJump _
  behind_none := ⟨⟩

/-! ### Statements -/

section Noted

variable {place : Place} {s : Statement} {x : Recorded RenderState Stop Unit}

/-- A statement that is entered with no jump pending, with its moment at the end of its record. -/
theorem noted (h : ∀ st : RenderState, st.memory.control.jump = .none → ∀ stop after,
      x.outcome st = (.error stop, after) → after.memory.control.jump =
        (Moment.executed place s st (.error stop) after).carry (carried (x.record st))) :
    (Recorded.noting (.executed place s) x).Carries (· = .none) fun _ _ => True where
  ok st _ a after hrun := by
    have hinner : x.outcome st = (.ok a, after) := hrun
    rw [record_noting, hinner, carried_concat]
    exact ⟨⟨⟩, rfl⟩
  error st hj stop after hrun := by
    have hinner : x.outcome st = (.error stop, after) := hrun
    rw [record_noting, hinner, carried_concat]
    exact h st hj stop after hinner

/-- A custom directive passes an error on with the jump it leaves pending. -/
theorem notedCustom {directive : Directive} {args : List Expr} {body : Statement}
    {location : Location} (hs : s = .custom directive args body location) :
    (Recorded.noting (.executed place s) x).Carries (· = .none) fun _ _ => True := by
  subst hs
  exact noted fun _ _ _ _ _ => rfl

/-- A statement that takes up every jump fails with none pending. -/
theorem notedTaking (hs : s.TakesJumps) (h : x.Lands) :
    (Recorded.noting (.executed place s) x).Carries (· = .none) fun _ _ => True := by
  refine noted fun st hj stop after hrun => ?_
  have hnone := h st hj
  rw [hrun] at hnone
  cases s with
  | call | inlined | render => exact hnone
  | _ => exact hs.elim

/-- Of other statements an error comes out as it came out of what is in them. -/
theorem notedPassing (h : x.Carries (· = .none) fun _ _ => True)
    (hs : ∀ st stop after jump,
      (Moment.executed place s st (.error stop) after).carry jump = jump) :
    (Recorded.noting (.executed place s) x).Carries (· = .none) fun _ _ => True :=
  noted fun st hj stop after hrun => (h.error st hj stop after hrun).trans (hs st stop after _).symm

end Noted

/-- **Errors carry jumps.** Behind a statement that was entered with no jump pending and fails, the
pending jump is the one that comes with the error. -/
theorem exec (config : Config) (fuel : Nat) (functions : Assoc TemplateFunction) (s : Statement)
    (scope : ScopeId) (loops : Nat) :
    (Recorded.exec config fuel functions s scope loops).Carries (· = .none) fun _ _ => True := by
  -- By induction on the fuel: a statement runs the statements in it with less. What runs in custom
  -- directives, calls, included and rendered files is of no interest.
  induction fuel generalizing functions s scope loops with
  | zero =>
    refine noted fun st hj stop after hrun => ?_
    obtain ⟨-, rfl⟩ := Prod.mk.inj hrun
    cases s with
    | custom => rfl
    | _ => exact hj
  | succ fuel ih =>
    have C := Inert.partsCompose config scope scope
    have here (s : Statement) (scope : ScopeId) (loops : Nat) := ih functions s scope loops
    cases s with
    | nothing | definition => exact notedPassing (pure () fun _ _ => ⟨⟩) fun _ _ _ _ => rfl
    | text content =>
      exact notedPassing (inert (C.silent (.write content))).forget fun _ _ _ _ => rfl
    | output value =>
      have hinert := Inert.bind (C.eval value) fun v => C.silent (.writeValue v)
      exact notedPassing (inert hinert).forget fun _ _ _ _ => rfl
    | condition test yes no =>
      refine notedPassing (bind (inert (C.holds test)) fun holds => ?_) fun _ _ _ _ => rfl
      split
      · exact here yes scope loops
      · exact here no scope loops
    | loop head body otherwise =>
      -- Every turn starts with no jump pending, and so does the alternative.
      refine notedPassing (inFrame (fun frame => ?_) scope) fun _ _ _ _ => rfl
      refine bind ((jumpLogic config).runLoop (here body frame (loops + 1)) fuel head scope frame)
        fun ran => ?_
      split
      · exact pure () fun _ _ => ⟨⟩
      next hran =>
        exact (here otherwise frame loops).imp (fun _ hj => hj.2 (eq_false_of_ne_true hran))
          fun _ _ => id
    | switch subject cases otherwise =>
      refine notedPassing (bind (inert (C.eval subject)) fun v => ?_) fun _ _ _ _ => rfl
      exact bind (inert (C.chooseCase v otherwise cases)) fun body => here body scope loops
    | call callee args ifDefined location =>
      -- An error in front of the body finds no jump pending, and behind the body none is left.
      refine notedTaking ⟨⟩ (.bind (.inert (C.calleeName location callee)) fun name => ?_)
      refine .bind (.inert (C.silent (.findFunction functions name))) fun found => ?_
      split
      · exact .bind (.inert (C.arguments _ args location)) fun values => .confined scope _
      · split
        · exact .inert (C.pure ())
        · exact .inert (C.silent (.throw _))
    | inlined assignments body => exact notedTaking ⟨⟩ (.confined scope _)
    | render file assignments site location =>
      exact notedTaking ⟨⟩
        (.bind (.inert (C.silent (.rendered site file location))) fun unit => .confined scope _)
    | assign policy assignments =>
      exact notedPassing (inert (C.assigns policy assignments)).forget fun _ _ _ _ => rfl
    | jump kind =>
      exact notedPassing (silent fun st _ => ⟨(), _, rfl, ⟨⟩⟩) fun _ _ _ _ => rfl
    | custom directive args body location => exact notedCustom rfl
    | block statements =>
      exact notedPassing ((jumpLogic config).runBlock ⟨⟩ fun s _ => here s scope loops)
        fun _ _ _ _ => rfl

end Recorded.Carries

/-- Calls, included and rendered files leave no jump pending when they fail, whatever has failed in
them. -/
theorem Statement.TakesJumps.failed_jump {s : Statement} (hs : s.TakesJumps) {fuel : Nat}
    {functions : Assoc TemplateFunction} {scope : ScopeId} {st after : RenderState} {stop : Stop}
    (hentered : st.memory.control.jump = .none)
    (hrun : (s.exec config fuel functions scope).runOn st = (.error stop, after)) :
    after.memory.control.jump = .none := by
  have houtcome :=
    ((Recorded.exec_faithful config fuel functions s scope 0).outcome st).trans hrun
  rw [(Recorded.Carries.exec config fuel functions s scope 0).error st hentered stop after houtcome]
  obtain ⟨x, hx⟩ := Recorded.exec_noting config fuel functions s scope 0
  rw [hx] at houtcome ⊢
  have hinner : x.outcome st = (.error stop, after) := houtcome
  rw [Recorded.record_noting, hinner, carried_concat]
  cases s with
  | call | inlined | render => rfl
  | _ => exact hs.elim

/-! ### What directives leave pending -/

/-- The jump that is pending behind a moment, if nothing but statements sets it. -/
def Moment.leave (jump : Jump) : Moment → Jump
  | .executed _ _ _ _ after => after.memory.control.jump
  | _ => jump

/-- Behind an action is pending what the statement executed last in it has left pending, or what was
pending before if there was none. -/
def Recorded.Tracks (x : Recorded RenderState Stop α) : Prop :=
  ∀ st, (x.outcome st).2.memory.control.jump =
    (x.record st).foldl Moment.leave st.memory.control.jump

namespace Recorded.Tracks

/-- A quiet action executes nothing, and leaves the jump as it is. -/
theorem quiet {act : Render α} (h : Render.Quiet config act) : (Recorded.silent act).Tracks :=
  h.jump_eq

/-- Actions that are tracked go on with such actions. -/
theorem bind {x : Recorded RenderState Stop α} {f : α → Recorded RenderState Stop β} (hx : x.Tracks)
    (hf : ∀ a, (f a).Tracks) : (x >>= f).Tracks := by
  intro st
  have hmid := hx st
  rw [outcome_bind, record_bind]
  rcases houtcome : x.outcome st with ⟨_ | a, mid⟩
  · rwa [houtcome] at hmid
  · rw [houtcome] at hmid
    dsimp only at hmid ⊢
    rw [List.foldl_append, ← hmid]
    exact hf a mid

/-- The read of a variable is tracked. -/
theorem lookup (host : Host) (scope : ScopeId) (name : String) :
    (Recorded.ofEval (Recorded.lookup host scope name)).Tracks := fun _ => rfl

theorem bindName (scope : ScopeId) (name : String) (value : Value) :
    (Recorded.bindName scope name value).Tracks := fun _ => rfl

/-- A statement is the one that is executed last in its own run. -/
theorem noted (place : Place) (s : Statement) (x : Recorded RenderState Stop Unit) :
    (Recorded.noting (.executed place s) x).Tracks := by
  intro st
  rw [record_noting, List.foldl_append]
  rfl

/-- So is a statement: it is the last that was executed in its own run. -/
theorem exec (config : Config) (fuel : Nat) (functions : Assoc TemplateFunction) (s : Statement)
    (scope : ScopeId) (loops : Nat) :
    (Recorded.exec config fuel functions s scope loops).Tracks := by
  obtain ⟨x, hx⟩ := exec_noting config fuel functions s scope loops
  exact hx ▸ noted _ s x

/-- An attempt is tracked as the action is. -/
theorem attempt {x : Recorded RenderState Stop α} (h : x.Tracks) : x.attempt.Tracks := by
  intro st
  have hstate : (x.attempt.outcome st).2 = (x.outcome st).2 := by
    rw [outcome_attempt]
    rcases x.outcome st with ⟨(_ | _ | _) | _, _⟩ <;> rfl
  exact (congrArg (·.memory.control.jump) hstate).trans (h st)

/-- So is a captured body, whose output alone is its own. -/
theorem captured {x : Recorded RenderState Stop Unit} (h : x.Tracks) : x.captured.Tracks :=
  fun st => h { st with output := .unlimited }

/-- **What directives leave pending.** A custom directive may render its body as often as it likes,
to the output or into strings: behind it is pending what the last of these renderings left pending,
whether the directive goes well or fails. -/
theorem runScript {body : Recorded RenderState Stop Unit} (h : body.Tracks) (scope : ScopeId)
    (bodies : List (Except Error Unit)) (script : Script) :
    (Recorded.runScript config scope body bodies script).Tracks := by
  have step {α : Type} {act : Render α} (hact : Render.Quiet config act) :
      (Recorded.silent act).Tracks := quiet hact
  -- by induction on the script: only renderings of the body execute anything
  induction script generalizing bodies with
  | stop result =>
    intro st
    cases result <;> rfl
  | writeText text _ ih => exact bind (step (.attempt (.write text))) fun r => ih r bodies
  | writeValue v _ ih => exact bind (step (.attempt (.writeValue v))) fun r => ih r bodies
  | renderBody _ ih => exact bind h.attempt fun r => ih r _
  | renderToText _ ih => exact bind h.captured.attempt fun r => ih r _
  | lookup name _ ih => exact bind (lookup _ scope name) fun v => ih v bodies
  | bind name v _ ih => exact bind (bindName scope name v) fun _ => ih bodies
  | inspect _ ih => exact bind (step .heap) fun h => ih h bodies
  | update change _ ih => exact bind (step (.updateHeap change)) fun _ => ih bodies

end Recorded.Tracks

/-- Whether a statement was executed. -/
def Moment.isExecuted : Moment → Bool
  | .executed .. => true
  | _ => false

/-- The statement that was executed last, with how it has ended. -/
def lastExecuted (record : List Moment) : Option Moment := record.reverse.find? (·.isExecuted)

/-- The last statement that was executed is the last of the part behind, if there is any. -/
theorem lastExecuted_append (record more : List Moment) :
    lastExecuted (record ++ more) = (lastExecuted more).or (lastExecuted record) := by
  unfold lastExecuted
  rw [List.reverse_append, List.find?_append]

/-- The statement executed last says what is pending behind all of them. -/
theorem foldl_leave {record : List Moment} {place : Place} {s : Statement} {before : RenderState}
    {result : Except Stop Unit} {after : RenderState}
    (h : lastExecuted record = some (.executed place s before result after)) (jump : Jump) :
    record.foldl Moment.leave jump = after.memory.control.jump := by
  induction record using List.reverseRecOn with
  | nil => cases h
  | append_singleton record moment ih =>
    rw [lastExecuted_append] at h
    rw [List.foldl_append]
    cases moment with
    | executed =>
      cases h
      rfl
    | _ => exact ih h

/-- Where every statement has gone well, none that has failed was executed. -/
theorem lastExecuted_ne_error {record : List Moment} (h : ∀ moment ∈ record, moment.Settled)
    {place : Place} {s : Statement} {before after : RenderState} {stop : Stop} :
    lastExecuted record ≠ some (.executed place s before (.error stop) after) := by
  intro hlast
  exact nomatch (h _ (List.mem_reverse.mp (List.mem_of_find?_eq_some hlast))).1

/-- Behind a custom directive whose body has failed in its last rendering is pending what was
pending then. -/
theorem custom_jump {directive : Directive} {args : List Expr} {body around : Statement}
    {location : Location} {fuel : Nat} {functions : Assoc TemplateFunction} {scope : ScopeId}
    {loops : Nat} {begin final : RenderState} {place : Place} {before after : RenderState}
    {result : Except Stop Unit} {stop : Stop}
    (hrun : ((Statement.custom directive args body location).exec config fuel functions
      scope).runOn begin = (result, final))
    (hlast : lastExecuted ((Recorded.exec config fuel functions
        (.custom directive args body location) scope loops).record begin).dropLast =
      some (.executed place around before (.error stop) after)) :
    final.memory.control.jump = after.memory.control.jump := by
  have houtcome := ((Recorded.exec_faithful config fuel functions
    (.custom directive args body location) scope loops).outcome begin).trans hrun
  cases fuel with
  | zero => cases hlast
  | succ fuel =>
    let values := Recorded.ofEval (Recorded.evalAll config.host scope args)
    let rendering := Recorded.exec config fuel functions body scope loops
    let script (vs : List Value) :=
      Recorded.runScript config scope rendering [] (directive.run location vs)
    have hvalues : values.Inert := (Recorded.Inert.partsCompose config scope scope).evalAll args
    change (values >>= script).outcome begin = _ at houtcome
    change lastExecuted ((values >>= script).record begin ++ [_]).dropLast = _ at hlast
    rw [List.dropLast_concat, Recorded.record_bind] at hlast
    rw [Recorded.outcome_bind] at houtcome
    rcases hhere : values.outcome begin with ⟨_ | vs, mid⟩
    · rw [hhere] at hlast
      exact absurd hlast (lastExecuted_ne_error (hvalues.settled begin))
    · rw [hhere] at hlast houtcome
      dsimp only at hlast houtcome
      -- The failure is in the script, since no statement fails in the arguments.
      rw [lastExecuted_append, Option.or_eq_some_iff] at hlast
      rcases hlast with hscript | ⟨-, hargs⟩
      · have htracks : (script vs).Tracks :=
          .runScript (.exec config fuel functions body scope loops) scope [] _
        have hjump := htracks mid
        rw [houtcome] at hjump
        exact hjump.trans (foldl_leave hscript _)
      · exact absurd hargs (lastExecuted_ne_error (hvalues.settled begin))

/-- **What failing loops leave pending.** Take any loop that is entered with no jump pending and
fails, whatever is in it and however often the custom directives in it render their bodies. Behind
it is pending what comes with the error: nothing, unless a directive has failed with a jump pending.

If nothing is pending, a directive around the loop may drop the error. Whatever the directive does,
and whichever statement around the loop is its body: if the last rendering of this body has ended
with the error of the loop and the directive goes well, the statements behind it run. -/
theorem failed_loop_jump (loops : Nat) {fuel : Nat} {functions : Assoc TemplateFunction}
    {head : LoopHead} {body otherwise : Statement} {scope : ScopeId} {st after : RenderState}
    {stop : Stop} (hentered : st.memory.control.jump = .none)
    (hrun : ((Statement.loop head body otherwise).exec config fuel functions scope).runOn st =
      (.error stop, after)) :
    let record :=
      (Recorded.exec config fuel functions (.loop head body otherwise) scope loops).record st
    after.memory.control.jump = carried record ∧
    ((∀ moment ∈ record, moment.Tidy) → after.memory.control.jump = .none) ∧
    (after.memory.control.jump = .none →
      ∀ directive args around location fuel functions scope loops place before begin final,
        let custom := Statement.custom directive args around location
        let run (s : Statement) := s.exec config fuel functions scope
        (run custom).runOn begin = (.ok (), final) →
        lastExecuted
            ((Recorded.exec config fuel functions custom scope loops).record begin).dropLast =
          some (.executed place around before (.error stop) after) →
        ∀ rest, (runBlock run (custom :: rest)).runOn begin = (runBlock run rest).runOn final) := by
  intro record
  have hcarries :=
    Recorded.Carries.exec config fuel functions (.loop head body otherwise) scope loops
  have houtcome := ((Recorded.exec_faithful config fuel functions (.loop head body otherwise) scope
    loops).outcome st).trans hrun
  -- the run of the loop ends in an error, which carries what its record says
  have hjump : after.memory.control.jump = carried record :=
    hcarries.error st hentered stop after houtcome
  refine ⟨hjump, fun htidy => hjump.trans (carried_of_tidy htidy), ?_⟩
  intro hnone directive args around location fuel functions scope loops place before begin final
    custom run hgone hlast rest
  exact runOn_runBlock_cons hgone ((custom_jump hgone hlast).trans hnone) rest

/-- A loop whose second turn fails, with a jump pending behind the first one, in a directive that
drops the error: the text behind it is written. -/
theorem failed_loop_jump_dropped :
    let one : Expr := .const (.int 1)
    let turn : Statement :=
      .condition (.compare .eq (.var "x") one default) (.jump .continue)
        (.output (.arith .div one (.const (.int 0)) default))
    let loop : Statement := .loop (.each "x" (.list [one, .const (.int 2)])) turn .nothing
    let tolerant : Directive := ⟨true, fun _ _ => .renderBody fun _ => .done⟩
    let block := [.custom tolerant [] loop default, .text "after"]
    let begin : RenderState := ⟨⟨{}, .ofData .empty, {}⟩, .unlimited, {}, {}⟩
    let failed := (loop.exec {} 5 .empty 0).runOn begin
    failed.1 = .error (.error (.template .divisionByZero default)) ∧
      failed.2.memory.control.jump = .none ∧
      ((runBlock (·.exec {} 6 .empty 0) block).runOn begin).2.output.received = "after" := by
  intro one turn loop tolerant block begin failed
  have hfailed : failed.1 = .error (.error (.template .divisionByZero default)) := by
    decide +kernel
  obtain ⟨hcarried, -, hresumed⟩ :=
    @failed_loop_jump {} 0 5 .empty _ turn .nothing 0 begin failed.2 _ rfl (Prod.ext hfailed rfl)
  -- one is pending behind the first turn, but the loop has taken it up
  have hnone : failed.2.memory.control.jump = .none := hcarried.trans (by decide +kernel)
  let caught := ((Statement.custom tolerant [] loop default).exec {} 6 .empty 0).runOn begin
  have hgone : caught.1 = .ok () := by decide +kernel
  have hlast : lastExecuted
      ((Recorded.exec {} 6 .empty (.custom tolerant [] loop default) 0 0).record begin).dropLast =
      some (.executed ⟨5, .empty, 0, 0⟩ loop begin
        (.error (.error (.template .divisionByZero default))) failed.2) := by
    simp only [tolerant, loop, turn, one, begin, failed]
    cbv
  have hblock := hresumed hnone tolerant [] loop default 6 .empty 0 0 ⟨5, .empty, 0, 0⟩ begin begin
    caught.2 (Prod.ext hgone rfl) hlast [.text "after"]
  refine ⟨hfailed, hnone, ?_⟩
  rw [hblock]
  decide +kernel

/-- A loop whose directive renders its body twice: the first rendering leaves a break pending, and
the second one fails. -/
theorem not_failed_loop_jump :
    ¬ ∀ (config : Config) (fuel : Nat) (functions : Assoc TemplateFunction) (head : LoopHead)
      (body otherwise : Statement) (scope : ScopeId) (st after : RenderState) (stop : Stop),
      st.memory.control.jump = .none →
      ((Statement.loop head body otherwise).exec config fuel functions scope).runOn st =
        (.error stop, after) →
      after.memory.control.jump ≠ .break ∧ after.memory.control.jump ≠ .continue := by
  intro hall
  let twice : Directive :=
    ⟨true, fun _ _ => .bind "i" (.int 0) (.renderBody (Script.andThen fun _ =>
      .bind "i" (.int 1) (.renderBody (Script.andThen fun _ => .done))))⟩
  let body : Statement :=
    .condition (.compare .eq (.var "i") (.const (.int 0)) default) (.jump .break)
      (.output (.arith .div (.const (.int 1)) (.const (.int 0)) default))
  let turn : Statement := .custom twice [] body default
  let head : LoopHead := .each "x" (.list [.const (.int 1)])
  let st : RenderState := ⟨⟨{}, .ofData .empty, {}⟩, .unlimited, {}, {}⟩
  let run := ((Statement.loop head turn .nothing).exec {} 6 .empty 0).runOn st
  -- the break stems from the rendering that went well, and is still pending when the other fails
  have hjump : run.2.memory.control.jump = .break := by decide +kernel
  have hfailed : run.1 = .error (.error (.template .divisionByZero default)) := by decide +kernel
  exact (hall {} 6 .empty head turn .nothing 0 st run.2 _ rfl (Prod.ext hfailed rfl)).1 hjump

end Stencil
