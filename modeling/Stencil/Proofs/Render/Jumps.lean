import Stencil.Proofs.Render.Library
import Stencil.Proofs.Render.Restoration
import Stencil.Proofs.Template.Containment

/-!
# Jumps end where they belong

A `#break` or `#continue` leaves a jump pending, and blocks give way to it up to the loop that takes
it up. The parser lets them stand in loop bodies only. So in a render of compiled templates none is
pending where no loop of the file and function is left to take it up: when the body of the template,
of a function, of an included or of a rendered file ends, and behind an outermost loop. And behind
calls, included and rendered files no jump of any kind is pending.

Two things can spoil this. A custom directive that renders its body a second time does so with the
jump of the first time still pending, and one that goes on after an error of its body goes on in the
middle of it. The theorems are about renders whose directives do neither (`Moment.Modest`).

The claim about a run is one about what happens in its middle, hence about its record. It is shown
for the actions that runs are put together from, as what they make of the pending jump when they go
well (`Recorded.Settles`). How blocks and loops treat the jumps of the statements in them is the
same for every kind of statements about pending jumps that can be put together (`JumpLogic`).

Main definitions: `Jump.Fits`, `Moment.Modest`, `Moment.Settled`, `JumpLogic`, `Recorded.Settles`.
Main statements: `JumpLogic.runLoop`, `Recorded.Settles.exec`.
-/

namespace Stencil

open Render

/-! ### Moments -/

/-- A jump that may be pending behind a statement with a number of loop bodies around it. -/
def Jump.Fits (loops : Nat) (jump : Jump) : Prop :=
  loops = 0 → jump ≠ .break ∧ jump ≠ .continue

/-- No jump fits everywhere. -/
theorem Jump.fits_none (loops : Nat) : Jump.none.Fits loops := fun _ => ⟨nofun, nofun⟩

theorem Jump.fits_return (loops : Nat) : Jump.return.Fits loops := fun _ => ⟨nofun, nofun⟩

/-- What fits outside of all loops fits everywhere. -/
theorem Jump.Fits.anywhere {jump : Jump} (h : jump.Fits 0) (loops : Nat) : jump.Fits loops :=
  fun _ => h rfl

/-- Calls, included and rendered files, behind which no jump is pending. -/
def Statement.TakesJumps : Statement → Prop
  | .call .. | .inlined .. | .render .. => True
  | _ => False

/-- A custom directive has rendered its body at most once, and if it has gone well, so has its
body. -/
def Moment.Modest : Moment → Prop
  | .directed bodies result => bodies.length ≤ 1 ∧ (result.isOk → ∀ body ∈ bodies, body.isOk)
  | _ => True

instance : DecidablePred Moment.Modest
  | .directed _ _ => inferInstanceAs (Decidable (_ ∧ _))
  | .executed .. | .evaluated .. | .read .. | .written .. => inferInstanceAs (Decidable True)

/-- A statement has gone well, from no pending jump to one that fits. -/
def Moment.Settled : Moment → Prop
  | .executed place s before result after =>
    result = .ok () ∧ before.memory.control.jump = .none ∧
      after.memory.control.jump.Fits place.loops ∧
      (s.TakesJumps → after.memory.control.jump = .none)
  | _ => True

/-! ### What is compiled is contained -/

/-- What is compiled has its jumps in loops. -/
theorem Compiled.Made.contained {config : Config} {unit : Compiled} (h : unit.Made config) :
    unit.Contained := by
  obtain ⟨files, source, first, next, hcompile⟩ := h
  exact compile_contained hcompile

/-- So has every function of it. -/
theorem TemplateFunction.Made.contained {config : Config} {f : TemplateFunction}
    (h : f.Made config) : f.body.Contained false := by
  obtain ⟨unit, hunit, name, hmem⟩ := h
  exact hunit.contained.functions _ hmem

/-! ### Settled actions -/

variable {α β : Type} {config : Config}

/-- From a pending jump as given, in a library that was made with the configuration, an action whose
directives are modest and that goes well leaves a pending jump as given, and every statement in it
is settled. -/
def Recorded.Settles (config : Config) (J : Jump → Prop) (x : Recorded RenderState Stop α)
    (K : α → Jump → Prop) : Prop :=
  ∀ st : RenderState, J st.memory.control.jump → st.library.Made config →
    (∀ moment ∈ x.record st, moment.Modest) → ∀ a after, x.outcome st = (.ok a, after) →
      K a after.memory.control.jump ∧ after.library.Made config ∧
        ∀ moment ∈ x.record st, moment.Settled

namespace Recorded.Settles

variable {J J' : Jump → Prop} {K : α → Jump → Prop} {L : β → Jump → Prop}
  {x : Recorded RenderState Stop α} {f : α → Recorded RenderState Stop β}

/-- Less may be asked behind an action, and more before it. -/
theorem imp {K' : α → Jump → Prop} (h : x.Settles config J K) (hJ : ∀ j, J' j → J j)
    (hK : ∀ a j, K a j → K' a j) : x.Settles config J' K' := by
  intro st hj hmade hmodest a after hok
  obtain ⟨hk, hrest⟩ := h st (hJ _ hj) hmade hmodest a after hok
  exact ⟨hK _ _ hk, hrest⟩

/-- One action behind another: the second from what the first leaves pending. -/
theorem bind (hx : x.Settles config J K) (hf : ∀ a, (f a).Settles config (K a) L) :
    (x >>= f).Settles config J L := by
  intro st hj hmade hmodest b after hok
  rw [outcome_bind] at hok
  rw [record_bind] at hmodest ⊢
  rcases houtcome : x.outcome st with ⟨_ | a, mid⟩
  -- what has not gone well says nothing about jumps
  · rw [houtcome] at hok
    cases hok
  -- the second action starts from what the first leaves pending
  · rw [houtcome] at hok hmodest
    obtain ⟨hhere, hlater⟩ := List.forall_mem_append.mp hmodest
    obtain ⟨hk, hmid, hsettled⟩ := hx st hj hmade hhere a mid houtcome
    obtain ⟨hl, hafter, hsettled'⟩ := hf a mid hk hmid hlater b after hok
    exact ⟨hl, hafter, List.forall_mem_append.mpr ⟨hsettled, hsettled'⟩⟩

/-- A value settles. -/
theorem pure (a : α) (h : ∀ j, J j → K a j) :
    (pure a : Recorded RenderState Stop α).Settles config J K := by
  rintro st hj hmade _ _ _ ⟨⟩
  exact ⟨h _ hj, hmade, List.forall_mem_nil _⟩

/-- An action in which nothing of note happens. -/
theorem silent {act : Render α}
    (h : ∀ st : RenderState, J st.memory.control.jump → st.library.Made config →
      ∀ a after, act.runOn st = (.ok a, after) →
        K a after.memory.control.jump ∧ after.library.Made config) :
    (Recorded.silent act).Settles config J K := by
  intro st hj hmade _ a after hok
  obtain ⟨hk, hafter⟩ := h st hj hmade a after hok
  exact ⟨hk, hafter, List.forall_mem_nil _⟩

/-- An action that stops. -/
theorem throw (stop : Stop) : (Recorded.silent (throw stop : Render α)).Settles config J K :=
  silent fun _ _ _ _ _ hok => nomatch hok

end Recorded.Settles

/-! ### The parts of statements -/

/-- An evaluation leaves the pending jump alone and runs no statement. -/
structure Recorded.Steady (x : Recorded Memory Error α) : Prop where
  jump : ∀ m, (x.outcome m).2.control.jump = m.control.jump
  settled : ∀ m, ∀ moment ∈ x.record m, moment.Settled

namespace Recorded.Steady

/-- An action that restores the control state is steady. -/
theorem silent {act : Eval α} (h : act.Restores) : (Recorded.silent act).Steady :=
  ⟨fun m => congrArg Control.jump (h m).2, fun _ => List.forall_mem_nil _⟩

/-- Steady evaluations go on with steady evaluations. -/
theorem bind {x : Recorded Memory Error α} {f : α → Recorded Memory Error β} (hx : x.Steady)
    (hf : ∀ a, (f a).Steady) : (x >>= f).Steady where
  jump := outcome_bind_same (fun m : Memory => m.control.jump) hx.jump fun a => (hf a).jump
  settled m := forall_record_bind (hx.settled m) fun a after _ => (hf a).settled after

/-- An evaluation that notes first what is read or written. -/
theorem noted {moment : Memory → Moment} {act : Eval α} (h : act.Restores)
    (hmoment : ∀ m, (moment m).Settled) :
    (do note moment; .silent act : Recorded Memory Error α).Steady :=
  ⟨(silent h).jump, fun m => List.forall_mem_singleton.mpr (hmoment m)⟩

/-- Evaluations are steady by their rules. -/
theorem evalComposes (host : Host) (scope : ScopeId) :
    EvalComposes host scope fun x _ => x.Steady where
  silent h := silent (.quiet h)
  bind := bind
  lookup name := noted (.lookup host scope name) fun _ => ⟨⟩
  assign name value := noted (.assign scope name value) fun _ => ⟨⟩
  withNullSafe h := ⟨fun _ => h.jump _, fun _ => h.settled _⟩
  withPolicy _ _ _ h := ⟨fun _ => h.jump _, fun _ => h.settled _⟩
  noting h := by
    refine ⟨h.jump, fun m moment hmoment => ?_⟩
    rcases mem_record_noting hmoment with hinner | rfl
    · exact h.settled m moment hinner
    · exact ⟨⟩

end Recorded.Steady

/-- A quiet action leaves the pending jump alone. -/
theorem Render.Quiet.jump_eq {act : Render α} (h : Render.Quiet config act) (st : RenderState) :
    (act.runOn st).2.memory.control.jump = st.memory.control.jump := by
  -- by induction on how the action is put together; only a jump statement sets a jump
  induction h generalizing st with
  | pure | throw | heap | onHeap | updateHeap | jump | write | flush | rendered => rfl
  | writeValue v => rfl
  | attempt _ hact =>
    rw [← hact st, runOn_attempt]
    rcases (runOn _ st) with ⟨(_ | _ | _) | _, _⟩ <;> rfl
  | findFunction functions name =>
    unfold Config.findFunction
    split <;> rfl
  | @bind _ _ x f _ _ hx hf =>
    have hfirst := hx st
    rw [runOn_bind]
    rcases hrun : x.runOn st with ⟨_ | a, after⟩
    · rwa [hrun] at hfirst
    · rw [hrun] at hfirst
      exact (hf a after).trans hfirst

/-! ### Blocks and loops -/

/-- A kind of statements about the jump that is pending before an action, and behind it for each of
its results. If turns leave a jump as `turned` says, loops leave one as `behind` says. -/
structure JumpLogic (config : Config) (turned behind : Jump → Prop)
    (S : {α : Type} → Recorded RenderState Stop α → (Jump → Prop) → (α → Jump → Prop) → Prop) :
    Prop where
  imp : ∀ {α : Type} {x : Recorded RenderState Stop α} {J J' : Jump → Prop}
    {K K' : α → Jump → Prop}, S x J K → (∀ j, J' j → J j) → (∀ a j, K a j → K' a j) → S x J' K'
  bind : ∀ {α β : Type} {x : Recorded RenderState Stop α} {f : α → Recorded RenderState Stop β}
    {J : Jump → Prop} {K : α → Jump → Prop} {L : β → Jump → Prop},
    S x J K → (∀ a, S (f a) (K a) L) → S (x >>= f) J L
  pure : ∀ {α : Type} (a : α) (K : α → Jump → Prop), S (pure a) (K a) K
  /-- The parts of statements leave no jump pending where none was. -/
  parts : ∀ outer top, PartsCompose config outer top (fun _ _ x _ => x.Steady)
    fun x _ => S x (· = .none) fun _ j => j = .none
  pending : ∀ J : Jump → Prop, S (Recorded.silent jump) J fun kind j => kind = j ∧ J j
  takeLoopJump : S (Recorded.silent takeLoopJump) turned
    fun isOver j => behind j ∧ (isOver = false → j = .none)
  behind_none : behind .none

namespace JumpLogic

variable {turned behind : Jump → Prop}
  {S : {α : Type} → Recorded RenderState Stop α → (Jump → Prop) → (α → Jump → Prop) → Prop}
  (C : JumpLogic config turned behind S)

include C

/-- A block goes on from statement to statement while no jump is pending. -/
theorem runBlock {run : Statement → Recorded RenderState Stop Unit} {left : Jump → Prop}
    (hnone : left .none) {statements : List Statement}
    (h : ∀ s ∈ statements, S (run s) (· = .none) fun _ => left) :
    S (Recorded.runBlock run statements) (· = .none) fun _ => left := by
  induction statements with
  | nil => exact C.imp (C.pure () fun _ => left) (fun _ hj => hj ▸ hnone) fun _ _ => id
  | cons s rest ih =>
    obtain ⟨hs, hrest⟩ := List.forall_mem_cons.mp h
    refine C.bind hs fun _ => C.bind (C.pending left) fun kind => ?_
    split
    next hkind => exact C.imp (ih hrest) (fun _ hj => hj.1.symm.trans hkind) fun _ _ => id
    · exact C.imp (C.pure () fun _ => left) (fun _ hj => hj.2) fun _ _ => id

/-- What the turns of a loop leave pending: nothing at all if its body did not run. -/
abbrev Turns (behind : Jump → Prop) (ran : Bool) (j : Jump) : Prop :=
  behind j ∧ (ran = false → j = .none)

/-- Before the first turn no jump is pending. -/
theorem noTurn (ran : Bool) (j : Jump) (hj : j = .none) : Turns behind ran j :=
  ⟨hj ▸ C.behind_none, fun _ => hj⟩

/-- A switch chooses among its bodies. -/
theorem chooseCase {P : Statement → Prop} {cases : List Case} {otherwise : Statement}
    (hcases : ∀ values body, .mk values body ∈ cases → P body) (hotherwise : P otherwise)
    (scope : ScopeId) (subject : Value) :
    S (Recorded.chooseCase config scope subject otherwise cases) (· = .none)
      fun body j => j = .none ∧ P body := by
  induction cases with
  | nil => exact C.imp (C.pure otherwise _) (fun _ hj => ⟨hj, hotherwise⟩) fun _ _ => id
  | cons c rest ih =>
    cases c with
    | mk values body =>
      refine C.bind ((C.parts scope scope).anyIs subject values) fun hit => ?_
      -- the first case that matches, or one of those behind it
      split
      · refine C.imp (C.pure body _) (fun _ hj => ⟨hj, ?_⟩) fun _ _ => id
        exact hcases values body List.mem_cons_self
      · exact ih fun values' body' hmem => hcases values' body' (List.mem_cons_of_mem _ hmem)

variable {turn : Recorded RenderState Stop Unit} (hturn : S turn (· = .none) fun _ => turned)

include hturn

/-- Behind the turns over a collection is pending what a loop leaves behind. -/
theorem walkTurns (item : String) (frame : ScopeId) (status : Value) (fuel : Nat) (walk : Walk)
    (index : Nat) :
    S (Recorded.walkTurns item frame status turn fuel walk index) (· = .none) (Turns behind) := by
  have P := C.parts frame frame
  -- By induction on the fuel: after a turn, the others are those of less fuel.
  induction fuel generalizing walk index with
  | zero => exact C.imp (P.silent (.throw _)) (fun _ => id) C.noTurn
  | succ fuel ih =>
    unfold Recorded.walkTurns
    refine C.bind (P.silent (.onHeap _)) fun next => ?_
    split
    · exact C.imp (C.pure _ (Turns behind)) (C.noTurn _) fun _ _ => id
    · refine C.bind (P.silent .heap) fun _ => C.bind (P.bindName item _) fun _ =>
        C.bind (P.bindStatus _) fun _ => C.bind hturn fun _ =>
          C.bind C.takeLoopJump fun isOver => ?_
      split
      · refine C.imp (C.pure true (Turns behind)) (fun _ hj => ⟨hj.1, fun hran => ?_⟩) fun _ _ => id
        exact Bool.noConfusion hran
      next hover =>
        exact C.imp (ih _ _) (fun _ hj => hj.2 (eq_false_of_ne_true hover)) fun _ _ => id

/-- Likewise behind counted turns. -/
theorem countTurns (test : Option Expr) (update : List Expr) (frame : ScopeId) (status : Value)
    (fuel index : Nat) :
    S (Recorded.countTurns config test update frame status turn fuel index) (· = .none)
      (Turns behind) := by
  have P := C.parts frame frame
  -- by induction on the fuel: the update starts the next turn with no jump pending
  induction fuel generalizing index with
  | zero => exact C.imp (P.silent (.throw _)) (fun _ => id) C.noTurn
  | succ fuel ih =>
    unfold Recorded.countTurns
    refine C.bind (P.goesOn test) fun on => ?_
    split
    · refine C.bind (P.bindStatus _) fun _ => C.bind hturn fun _ =>
        C.bind C.takeLoopJump fun isOver => ?_
      split
      · refine C.imp (C.pure true (Turns behind)) (fun _ hj => ⟨hj.1, fun hran => ?_⟩) fun _ _ => id
        exact Bool.noConfusion hran
      next hover =>
        refine C.bind (C.imp (P.assigns .inner update)
          (fun _ hj => hj.2 (eq_false_of_ne_true hover)) fun _ _ => id) fun _ => ih _
    · exact C.imp (C.pure _ (Turns behind)) (C.noTurn _) fun _ _ => id

/-- A turn starts with no jump pending, since the loop has taken up that of the turn before. -/
theorem runLoop (fuel : Nat) (head : LoopHead) (scope frame : ScopeId) :
    S (Recorded.runLoop config fuel head scope frame turn) (· = .none) (Turns behind) := by
  have P := C.parts scope frame
  cases head with
  -- no jump is pending when the collection is evaluated, nor when a turn begins
  | each item collection =>
    have hcollection := P.evalOuter (y := collection.eval config.host scope)
      ((P.evals scope).eval collection)
    exact C.bind hcollection fun v => C.bind P.outerStatus fun status =>
      C.bind (P.silent (.onHeap _)) fun walk => C.walkTurns hturn item frame status fuel walk 0
  | counting start test update =>
    exact C.bind P.outerStatus fun status => C.bind (P.assigns .inner start) fun _ =>
      C.countTurns hturn test update frame status fuel 0

end JumpLogic

/-! ### Settled parts of statements -/

namespace Recorded.Settles

variable {J : Jump → Prop} {K : α → Jump → Prop} {x : Recorded RenderState Stop α}

/-- A quiet action leaves the pending jump alone. -/
theorem quiet {act : Render α} (h : Render.Quiet config act) (J : Jump → Prop) :
    (Recorded.silent act).Settles config J fun _ => J :=
  silent fun st hj hmade a after hok => by
    have hjump := h.jump_eq st
    have hlibrary := (Maintains.quiet (L := Library.madeInvariant config) h).made hmade
    rw [hok] at hjump hlibrary
    exact ⟨hjump ▸ hj, hlibrary⟩

/-- A steady evaluation settles: it leaves the jump as it is. -/
theorem ofEval {x : Recorded Memory Error α} (h : x.Steady) (J : Jump → Prop) :
    (Recorded.ofEval x).Settles config J fun _ => J := by
  intro st hj hmade _ a after hok
  obtain ⟨-, rfl⟩ := Prod.mk.inj hok
  exact ⟨(h.jump st.memory).symm ▸ hj, hmade, h.settled st.memory⟩

/-- So does a binding. -/
theorem bindName (scope : ScopeId) (name : String) (value : Value) (J : Jump → Prop) :
    (Recorded.bindName scope name value).Settles config J fun _ => J := by
  intro st hj hmade _ a after hok
  obtain ⟨-, rfl⟩ := Prod.mk.inj hok
  exact ⟨hj, hmade, List.forall_mem_singleton.mpr ⟨⟩⟩

/-- The parts of statements leave the pending jump alone. -/
theorem partsCompose (config : Config) (outer top : ScopeId) :
    PartsCompose config outer top (fun _ _ x _ => x.Steady)
      (fun x _ => ∀ J, x.Settles config J fun _ => J) where
  evals := Steady.evalComposes config.host
  silent := quiet
  bind hx hf J := (hx J).bind fun a => hf a J
  evalTop := ofEval
  evalOuter := ofEval
  bindName := bindName top

/-- An action in a frame of its own. -/
theorem inFrame {x : ScopeId → Recorded RenderState Stop α}
    (h : ∀ frame, (x frame).Settles config J K) (parent : ScopeId) :
    (Recorded.inFrame parent x).Settles config J K := by
  intro st hj hmade hmodest a after hok
  let frame := st.memory.scopes.frames.size
  rcases houtcome : (x frame).outcome (st.opened parent) with ⟨result, inner⟩
  rw [outcome_inFrame, houtcome] at hok
  obtain ⟨rfl, rfl⟩ := Prod.mk.inj hok
  exact h frame (st.opened parent) hj hmade hmodest a inner houtcome

/-- Behind a body that jumps do not leave, none is pending. -/
theorem confined {x : ScopeId → Recorded RenderState Stop α}
    (h : ∀ frame, (x frame).Settles config J fun _ j => j.Fits 0) (parent : ScopeId) :
    (Recorded.confined parent x).Settles config J fun _ j => j = .none := by
  intro st hj hmade hmodest a after hok
  rcases houtcome : (Recorded.inFrame parent x).outcome st with ⟨result, inner⟩
  rw [outcome_confined, houtcome] at hok
  obtain ⟨rfl, rfl⟩ := Prod.mk.inj hok
  obtain ⟨-, hafter, hsettled⟩ := inFrame h parent st hj hmade hmodest a inner houtcome
  exact ⟨rfl, hafter, hsettled⟩

/-- A captured body settles as the body does. -/
theorem captured {x : Recorded RenderState Stop Unit} {J' : Jump → Prop}
    (h : x.Settles config J fun _ => J') : x.captured.Settles config J fun _ => J' := by
  intro st hj hmade hmodest text after hok
  rcases houtcome : x.outcome { st with output := .unlimited } with ⟨_ | _, inner⟩
  · rw [outcome_captured, houtcome] at hok
    cases hok
  · rw [outcome_captured, houtcome] at hok
    obtain ⟨-, rfl⟩ := Prod.mk.inj hok
    exact h { st with output := .unlimited } hj hmade hmodest _ inner houtcome

/-- The pending jump is what is read. -/
theorem pending (J : Jump → Prop) :
    (Recorded.silent jump).Settles config J fun kind j => kind = j ∧ J j :=
  silent fun _ hj hmade _ _ hok => by
    obtain ⟨hkind, rfl⟩ := Prod.mk.inj hok
    exact ⟨⟨(Except.ok.inj hkind).symm, hj⟩, hmade⟩

/-- A jump statement leaves its jump pending. -/
theorem setJump (kind : Jump) :
    (Recorded.silent (setJump kind)).Settles config (fun _ => True) fun _ j => j = kind :=
  silent fun _ _ hmade _ _ hok => by
    obtain ⟨-, rfl⟩ := Prod.mk.inj hok
    exact ⟨rfl, hmade⟩

/-- A loop takes up every jump but a return, and goes on if none is pending any more. -/
theorem takeLoopJump (J : Jump → Prop) :
    (Recorded.silent takeLoopJump).Settles config J
      fun isOver j => j.Fits 0 ∧ (isOver = false → j = .none) := by
  refine silent fun st _ hmade isOver after hok => ?_
  obtain ⟨⟨heap, scopes, kind, policy, nullSafe⟩, output, library, files⟩ := st
  -- only a return is still pending behind the turn that it ends
  cases kind with
  | none | «continue» =>
    obtain ⟨-, rfl⟩ := Prod.mk.inj hok
    exact ⟨⟨Jump.fits_none 0, fun _ => rfl⟩, hmade⟩
  | «break» =>
    obtain ⟨-, rfl⟩ := Prod.mk.inj hok
    exact ⟨⟨Jump.fits_none 0, fun _ => rfl⟩, hmade⟩
  | «return» =>
    obtain ⟨hover, rfl⟩ := Prod.mk.inj hok
    obtain rfl := Except.ok.inj hover
    exact ⟨⟨Jump.fits_return 0, nofun⟩, hmade⟩

/-- Notes that a statement was executed, which has gone well. -/
theorem noted {place : Place} {s : Statement} {x : Recorded RenderState Stop Unit}
    (h : x.Settles config (· = .none)
      fun _ j => j.Fits place.loops ∧ (s.TakesJumps → j = .none)) :
    (Recorded.noting (.executed place s) x).Settles config (· = .none)
      fun _ j => j.Fits place.loops ∧ (s.TakesJumps → j = .none) := by
  intro st hj hmade hmodest a after hok
  obtain ⟨hinner, -⟩ := List.forall_mem_append.mp hmodest
  obtain ⟨⟨hfits, htaken⟩, hafter, hsettled⟩ := h st hj hmade hinner a after hok
  refine ⟨⟨hfits, htaken⟩, hafter, fun moment hmoment => ?_⟩
  -- the moments inside have been settled, and the last one is how the statement has ended
  rcases mem_record_noting hmoment with hinner | rfl
  · exact hsettled moment hinner
  · have hstop : x.outcome st = (.ok (), after) := hok
    rw [hstop]
    exact ⟨rfl, hj, hfits, htaken⟩

/-- A function that is found has its breaks and continues in its loops. -/
theorem findFunction {functions : Assoc TemplateFunction} (h : ContainedBodies functions)
    (name : String) (J : Jump → Prop) :
    (Recorded.silent (config.findFunction functions name)).Settles config J
      fun found j => J j ∧ ∀ f ∈ found, f.body.Contained false := by
  intro st hj hmade hmodest found after hok
  obtain ⟨hj', hafter, hsettled⟩ :=
    quiet (.findFunction functions name) J st hj hmade hmodest found after hok
  refine ⟨⟨hj', fun f hf => ?_⟩, hafter, hsettled⟩
  obtain rfl := Option.mem_def.mp hf
  rcases hmade.of_findFunction (congrArg Prod.fst hok) with ⟨e, he, rfl⟩ | hf
  · exact h e he
  · exact hf.contained

/-- A file that is rendered has its breaks and continues in its loops. -/
theorem rendered (site : Nat) (file : String) (location : Location) (J : Jump → Prop) :
    (Recorded.silent (config.rendered site file location)).Settles config J
      fun unit j => J j ∧ unit.Contained := by
  intro st hj hmade hmodest unit after hok
  obtain ⟨hj', hafter, hsettled⟩ :=
    quiet (.rendered site file location) J st hj hmade hmodest unit after hok
  exact ⟨⟨hj', (hmade.of_rendered (congrArg Prod.fst hok)).contained⟩, hafter, hsettled⟩

/-- A loop leaves nothing pending but a return. -/
theorem jumpLogic (config : Config) :
    JumpLogic config (fun _ => True) (Jump.Fits 0) fun x J K => x.Settles config J K where
  imp := imp
  bind := bind
  pure a _ := pure a fun _ => id
  parts _ top :=
    { evals := Steady.evalComposes config.host
      silent := fun h => quiet h _
      bind := bind
      evalOuter := fun h => ofEval h _
      evalTop := fun h => ofEval h _
      bindName := fun name value => bindName top name value _ }
  pending := pending
  takeLoopJump := takeLoopJump _
  behind_none := Jump.fits_none 0

end Recorded.Settles

/-! ### Custom directives -/

/-- An action that does not go well if its directives are modest. -/
def Recorded.Doomed (x : Recorded RenderState Stop α) : Prop :=
  ∀ st, (∀ moment ∈ x.record st, moment.Modest) → ∀ a after, x.outcome st ≠ (.ok a, after)

/-- What goes on with a doomed action is doomed. -/
theorem Recorded.Doomed.bind {x : Recorded RenderState Stop α}
    {f : α → Recorded RenderState Stop β} (hf : ∀ a, (f a).Doomed) : (x >>= f).Doomed := by
  intro st hmodest b after hok
  rw [outcome_bind] at hok
  rw [record_bind] at hmodest
  rcases houtcome : x.outcome st with ⟨_ | a, mid⟩
  · rw [houtcome] at hok
    cases hok
  · rw [houtcome] at hok hmodest
    exact hf a mid (List.forall_mem_append.mp hmodest).2 b after hok

/-- Of a doomed action everything holds if it goes well. -/
theorem Recorded.Doomed.settles {x : Recorded RenderState Stop α} (h : x.Doomed) {J : Jump → Prop}
    {K : α → Jump → Prop} : x.Settles config J K :=
  fun st _ _ hmodest a after hok => absurd hok (h st hmodest a after)

/-- Renderings of a body behind which no modest directive goes well. -/
def Spoiled (bodies : List (Except Error Unit)) : Prop :=
  1 < bodies.length ∨ ∃ error, .error error ∈ bodies

/-- More renderings do not unspoil what is spoiled. -/
theorem Spoiled.append {bodies : List (Except Error Unit)} (h : Spoiled bodies)
    (more : List (Except Error Unit)) : Spoiled (bodies ++ more) := by
  rcases h with hlength | ⟨error, hmem⟩
  · rw [Spoiled, List.length_append]
    exact .inl (Nat.lt_add_right _ hlength)
  · exact .inr ⟨error, List.mem_append_left _ hmem⟩

/-- A second rendering spoils. -/
theorem spoiled_second {bodies : List (Except Error Unit)} (h : bodies ≠ [])
    (result : Except Error Unit) : Spoiled (bodies ++ [result]) := by
  rw [Spoiled, List.length_append]
  exact .inl (Nat.lt_add_of_pos_left (List.length_pos_iff.mpr h))

theorem spoiled_error (bodies : List (Except Error Unit)) (error : Error) :
    Spoiled (bodies ++ [.error error]) :=
  .inr ⟨error, List.mem_append_right _ (List.mem_singleton_self _)⟩

/-- A script that has rendered its body twice, or was told of an error of its body, is not one of a
modest directive that goes well. -/
theorem Recorded.runScript_doomed (scope : ScopeId) (body : Recorded RenderState Stop Unit)
    {bodies : List (Except Error Unit)} (h : Spoiled bodies) (script : Script) :
    (Recorded.runScript config scope body bodies script).Doomed := by
  -- by induction on the script: its end is told of all renderings, which it may not be modest about
  induction script generalizing bodies with
  | stop result =>
    intro st hmodest _ after hok
    obtain ⟨hlength, hwell⟩ := hmodest _ List.mem_cons_self
    rcases h with hlong | ⟨error, hmem⟩
    · exact Nat.not_lt_of_le hlength hlong
    -- a directive that goes well has been told of no error
    · cases result with
      | ok => exact Bool.false_ne_true (hwell rfl _ hmem)
      | error => cases hok
  | writeText _ _ ih | writeValue _ _ ih | lookup _ _ ih | inspect _ ih =>
    exact .bind fun r => ih r h
  | renderBody _ ih | renderToText _ ih => exact .bind fun r => ih r (h.append _)
  | bind _ _ _ ih | update _ _ ih => exact .bind fun _ => ih h

namespace Recorded.Settles

variable {J J' : Jump → Prop} {K : α → Jump → Prop} {L : β → Jump → Prop}

/-- What follows an action that was tried, if nothing goes well behind its errors. -/
theorem tried {x : Recorded RenderState Stop α} {f : Except Error α → Recorded RenderState Stop β}
    (hx : x.Settles config J K) (hok : ∀ a, (f (.ok a)).Settles config (K a) L)
    (hbad : ∀ error, (f (.error error)).Doomed) : (x.attempt >>= f).Settles config J L := by
  intro st hj hmade hmodest b after hrun
  rw [outcome_bind, outcome_attempt] at hrun
  rw [record_bind, outcome_attempt] at hmodest ⊢
  rcases houtcome : x.outcome st with ⟨(_ | _ | error) | a, mid⟩
  -- Nothing follows what nothing catches.
  · rw [houtcome] at hrun
    cases hrun
  · rw [houtcome] at hrun
    cases hrun
  · -- What follows is told of an error.
    rw [houtcome] at hrun hmodest
    exact absurd hrun (hbad error mid (List.forall_mem_append.mp hmodest).2 b after)
  · rw [houtcome] at hrun hmodest
    obtain ⟨hhere, hlater⟩ := List.forall_mem_append.mp hmodest
    obtain ⟨hk, hmid, hsettled⟩ := hx st hj hmade hhere a mid houtcome
    obtain ⟨hl, hafter, hsettled'⟩ := hok a mid hk hmid hlater b after hrun
    exact ⟨hl, hafter, List.forall_mem_append.mpr ⟨hsettled, hsettled'⟩⟩

/-- What follows a rendering of a body. The first one starts with no jump pending, and nothing goes
well behind a second one or behind an error. -/
theorem renderedOnce {loops : Nat} {x : Recorded RenderState Stop α}
    {f : Except Error α → Recorded RenderState Stop β} {bodies : List (Except Error Unit)}
    (hx : x.Settles config (· = .none) fun _ j => j.Fits loops)
    (hok : ∀ a, (f (.ok a)).Settles config (fun j => j.Fits loops) L)
    (hbad : ∀ error, (f (.error error)).Doomed) (hsecond : bodies ≠ [] → ∀ r, (f r).Doomed) :
    (x.attempt >>= f).Settles config (fun j => (bodies = [] → j = .none) ∧ j.Fits loops) L := by
  by_cases hfirst : bodies = []
  · exact tried (hx.imp (fun _ hj => hj.1 hfirst) fun _ _ => id) hok hbad
  · exact (Doomed.bind (hsecond hfirst)).settles

/-- The end of a custom directive. -/
theorem directed (bodies : List (Except Error Unit)) (result : Except Error Unit)
    (J : Jump → Prop) :
    Recorded.Settles config J
      (do Recorded.note fun _ => .directed bodies result; .silent (Render.ofExcept result))
      fun _ => J := by
  intro st hj hmade hmodest a after hok
  obtain ⟨hj', hafter, -⟩ :=
    quiet (.ofExcept result) J st hj hmade (List.forall_mem_nil _) a after hok
  exact ⟨hj', hafter, List.forall_mem_singleton.mpr ⟨⟩⟩

/-- A modest directive leaves pending what its body leaves pending. -/
theorem runScript {body : Recorded RenderState Stop Unit} {loops : Nat}
    (hbody : body.Settles config (· = .none) fun _ j => j.Fits loops) (scope : ScopeId)
    (bodies : List (Except Error Unit)) (script : Script) :
    (Recorded.runScript config scope body bodies script).Settles config
      (fun j => (bodies = [] → j = .none) ∧ j.Fits loops) fun _ j => j.Fits loops := by
  have C := partsCompose config scope scope
  have grown (bodies : List (Except Error Unit)) (result : Except Error Unit) :
      bodies ++ [result] ≠ [] := List.append_ne_nil_of_right_ne_nil _ (List.cons_ne_nil _ _)
  -- by induction on the script: a rendering leaves pending what the body does, and it is the only
  -- one
  induction script generalizing bodies with
  | stop result => exact (directed bodies result _).imp (fun _ hj => hj.2) fun _ _ => id
  | writeText text _ ih => exact bind (quiet (.attempt (.write text)) _) fun r => ih r bodies
  | writeValue v _ ih => exact bind (quiet (.attempt (.writeValue v)) _) fun r => ih r bodies
  | renderBody _ ih =>
    exact renderedOnce hbody
      (fun _ => (ih _ _).imp (fun _ hj => ⟨(absurd · (grown _ _)), hj⟩) fun _ _ => id)
      (fun error => runScript_doomed scope body (spoiled_error bodies error) _)
      fun hsecond r => runScript_doomed scope body (spoiled_second hsecond r) _
  | renderToText _ ih =>
    exact renderedOnce (captured hbody)
      (fun _ => (ih _ _).imp (fun _ hj => ⟨(absurd · (grown _ _)), hj⟩) fun _ _ => id)
      (fun error => runScript_doomed scope body (spoiled_error bodies error) _)
      fun hsecond r => runScript_doomed scope body (spoiled_second hsecond _) _
  | lookup name _ ih => exact bind (C.lookup name _) fun v => ih v bodies
  | bind name v _ ih => exact bind (bindName scope name v _) fun _ => ih bodies
  | inspect _ ih => exact bind (quiet .heap _) fun h => ih h bodies
  | update change _ ih => exact bind (quiet (.updateHeap change) _) fun _ => ih bodies

end Recorded.Settles

/-! ### Statements -/

namespace Recorded.Settles

variable {s : Statement} {x : Recorded RenderState Stop Unit} {J : Jump → Prop}

/-- What leaves no jump pending is as it should be for any statement. -/
theorem nonePending {loops : Nat} (h : x.Settles config J fun _ j => j = .none) :
    x.Settles config J fun _ j => j.Fits loops ∧ (s.TakesJumps → j = .none) :=
  h.imp (fun _ => id) fun _ _ hj => ⟨hj ▸ Jump.fits_none loops, fun _ => hj⟩

/-- What leaves a jump pending that fits is as it should be for most statements. -/
theorem fitting {loops : Nat} (h : x.Settles config J fun _ j => j.Fits loops)
    (hs : ¬s.TakesJumps) :
    x.Settles config J fun _ j => j.Fits loops ∧ (s.TakesJumps → j = .none) :=
  h.imp (fun _ => id) fun _ _ hj => ⟨hj, fun htakes => absurd htakes hs⟩

/-- What is known of a result is known of what follows. -/
theorem given {P : Prop} {x : Recorded RenderState Stop α} {K : α → Jump → Prop}
    (h : P → x.Settles config J K) : x.Settles config (fun j => J j ∧ P) K :=
  fun st hj => h hj.2 st hj.1

/-- **Jumps end where they belong.** A statement whose breaks and continues stand in loops leaves
none of them pending outside of all loops, and behind calls, included and rendered files nothing is
pending. So it is for all statements that are executed in it. -/
theorem exec (fuel : Nat) {functions : Assoc TemplateFunction} {s : Statement}
    {inLoop : Bool} {loops : Nat} (hfunctions : ContainedBodies functions)
    (hs : s.Contained inLoop) (hloops : inLoop = true → loops ≠ 0) (scope : ScopeId) :
    (Recorded.exec config fuel functions s scope loops).Settles config (· = .none)
      fun _ j => j.Fits loops ∧ (s.TakesJumps → j = .none) := by
  -- By induction on the fuel: a statement runs the statements in it, and those of the functions
  -- and files it finds, with less.
  induction fuel generalizing functions s inLoop loops scope with
  | zero => exact noted (throw _)
  | succ fuel ih =>
    -- In the middle of a statement only what fits is of interest.
    have run {functions : Assoc TemplateFunction} {s : Statement} {inLoop : Bool} {loops : Nat}
        (hfunctions : ContainedBodies functions) (hs : s.Contained inLoop)
        (hloops : inLoop = true → loops ≠ 0) (scope : ScopeId) :
        (Recorded.exec config fuel functions s scope loops).Settles config (· = .none)
          fun _ j => j.Fits loops :=
      (ih hfunctions hs hloops scope).imp (fun _ => id) fun _ _ hj => hj.1
    have here {s : Statement} (hs : s.Contained inLoop) := run hfunctions hs hloops scope
    have C := partsCompose config scope scope
    refine noted ?_
    cases hs with
    | nothing | definition => exact nonePending (pure () fun _ => id)
    | text content => exact nonePending (quiet (.write content) _)
    | output value =>
      exact nonePending (bind (C.eval value _) fun v => quiet (.writeValue v) _)
    | condition test hyes hno =>
      refine fitting (bind (C.holds test _) fun holds => ?_) nofun
      split
      · exact here hyes
      · exact here hno
    | loop head hbody hotherwise =>
      refine fitting (inFrame (fun frame => ?_) scope) nofun
      -- The body has this loop around it, the alternative has not.
      have turn := run hfunctions hbody (fun _ => Nat.succ_ne_zero loops) frame
      refine bind ((jumpLogic config).runLoop (turn.imp (fun _ => id) fun _ _ _ => ⟨⟩) fuel head
        scope frame) fun ran => ?_
      split
      next => exact pure () fun _ hj => hj.1.anywhere loops
      next hran =>
        exact (run hfunctions hotherwise hloops frame).imp
          (fun _ hj => hj.2 (eq_false_of_ne_true hran)) fun _ _ => id
    | switch subject hcases hotherwise =>
      refine fitting (bind (C.eval subject _) fun v => ?_) nofun
      exact bind ((jumpLogic config).chooseCase hcases hotherwise scope v) fun body => given here
    | call callee args ifDefined location =>
      refine nonePending (bind (C.calleeName location callee _) fun name => ?_)
      refine bind (findFunction hfunctions name _) fun found => given fun hfound => ?_
      split
      next f =>
        refine bind (C.arguments f args location _) fun values => ?_
        refine confined (fun frame => ?_) scope
        have C := partsCompose config scope frame
        exact bind (C.bindAll _ _) fun _ => run hfunctions (hfound f rfl) nofun frame
      · split
        · exact pure () fun _ => id
        · exact throw _
    | inlined assignments hbody =>
      refine nonePending (confined (fun frame => ?_) scope)
      have C := partsCompose config scope frame
      exact bind (C.assigns .inner assignments _) fun _ => run hfunctions hbody nofun frame
    | render file assignments site location =>
      refine nonePending (bind (rendered site file location _) fun unit => given fun hunit => ?_)
      refine confined (fun frame => ?_) scope
      have C := partsCompose config scope frame
      exact bind (C.assigns .inner assignments _) fun _ =>
        run hunit.functions hunit.body nofun frame
    | assign policy assignments => exact nonePending (C.assigns policy assignments _)
    | finish =>
      refine fitting ((setJump .return).imp (fun _ _ => ⟨⟩) fun _ _ hj => ?_) nofun
      exact hj ▸ Jump.fits_return loops
    | jump kind =>
      refine fitting ((setJump kind).imp (fun _ _ => ⟨⟩) fun _ _ _ hzero => ?_) nofun
      exact absurd hzero (hloops rfl)
    | custom directive args location hbody =>
      refine fitting (bind (C.evalAll args _) fun values => ?_) nofun
      exact (runScript (here hbody) scope [] _).imp
        (fun _ hj => ⟨fun _ => hj, hj ▸ Jump.fits_none loops⟩) fun _ _ => id
    | block hstatements =>
      exact fitting ((jumpLogic config).runBlock (Jump.fits_none loops)
        fun s hs => here (hstatements s hs)) nofun

end Recorded.Settles

/-- A render of a template that was compiled, in a library of such templates. -/
theorem Compiled.Made.recorded_settles {unit : Compiled} (h : unit.Made config) (fuel : Nat) :
    (unit.recorded config fuel).Settles config (· = .none) fun _ j => j.Fits 0 := by
  have hcontained := h.contained
  refine Recorded.Settles.bind (.exec fuel hcontained.functions hcontained.body nofun 0) fun _ => ?_
  exact (Recorded.Settles.quiet .flush _).imp (fun _ hj => hj.1) fun _ _ => id

/-- Behind a statement that leaves no jump pending a block goes on. -/
theorem runOn_runBlock_cons {run : Statement → Render Unit} {s : Statement} {st after : RenderState}
    (hrun : (run s).runOn st = (.ok (), after)) (hjump : after.memory.control.jump = .none)
    (rest : List Statement) :
    (runBlock run (s :: rest)).runOn st = (runBlock run rest).runOn after := by
  have hread : jump.runOn after = (.ok .none, after) :=
    congrArg (fun j => (Except.ok j, after)) hjump
  rw [runBlock, runOn_bind, hrun]
  dsimp only
  rw [runOn_bind, hread]
  rfl

end Stencil
