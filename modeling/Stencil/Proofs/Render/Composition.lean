import Stencil.Proofs.Render.Correspondence

/-!
# What runs are composed of

Every evaluation and every execution is put together from a few kinds of steps: steps that reach
neither variables nor control state (`Eval.Quiet`, `Render.Quiet`), reads and assignments, frames,
and the brackets that install control state or another output for a time. So a property of actions
that these steps have, and that is kept when actions are put together, is one of every evaluation
and of every execution, whatever the expression or the statement.

The property may also speak of the recorded twin of an action, so what a run does and what its
record says of it are shown in one go. The number of the innermost frame is known throughout: names
are read and assigned to in this frame or one around it, and a block that opens a frame does so on
top of it.

Main definitions: `EvalComposes`, `RunComposes`, `LoopsCompose`.
Main statements: `EvalComposes.eval`, `RunComposes.exec`, `Recorded.exec_faithful`.
-/

namespace Stencil

/-! ### Quiet steps -/

/-- An evaluation that reads no variable and changes nothing but the heap. -/
inductive Eval.Quiet : {α : Type} → Eval α → Prop where
  | pure {α : Type} (a : α) : Eval.Quiet (pure a)
  | throw {α : Type} (error : Error) : Eval.Quiet (throw error : Eval α)
  | memory : Eval.Quiet (get : Eval Memory)
  | onHeap {α : Type} (f : Heap → α × Heap) : Eval.Quiet (Eval.onHeap f)
  | bind {α β : Type} {x : Eval α} {f : α → Eval β} : Eval.Quiet x → (∀ a, Eval.Quiet (f a)) →
      Eval.Quiet (x >>= f)

/-- What reads and changes nothing but the heap is quiet. -/
theorem Eval.HeapOnly.quiet {α : Type} {act : Eval α} (h : act.HeapOnly) : act.Quiet := by
  induction h with
  | pure a => exact .pure a
  | throw error => exact .throw error
  | heap => exact .bind .memory fun m => .pure m.heap
  | onHeap f => exact .onHeap f
  | bind _ _ hx hf => exact .bind hx hf

/-! ### Evaluations -/

/-- Every frame corresponds to itself, with all its names. -/
def Matching.same : Matching where
  sees := Eq
  owns := Eq
  names _ := True
  sees_of_owns := id

/-- A property of evaluations in a frame, and of their twins, that composes. -/
structure EvalComposes (host : Host) (scope : ScopeId)
    (R : {α : Type} → Recorded Memory Error α → Eval α → Prop) : Prop where
  silent : ∀ {α : Type} {act : Eval α}, act.Quiet → R (.silent act) act
  bind : ∀ {α β : Type} {x : Recorded Memory Error α} {y : Eval α}
    {f : α → Recorded Memory Error β} {g : α → Eval β},
    R x y → (∀ a, R (f a) (g a)) → R (x >>= f) (y >>= g)
  lookup : ∀ name, R (.lookup host scope name) (Eval.lookup host scope name)
  assign : ∀ name value, R (.assign scope name value) (Eval.assign scope name value)
  withNullSafe : ∀ {α : Type} {x : Recorded Memory Error α} {y : Eval α},
    R x y → R x.withNullSafe (Eval.withNullSafe y)
  withPolicy : ∀ {α : Type} (policy : Policy) {x : Recorded Memory Error α} {y : Eval α},
    R x y → R (x.withPolicy policy) (Eval.withPolicy policy y)
  noting : ∀ {e : Expr} {x : Recorded Memory Error Value},
    R x (e.eval host scope) → R (.noting (.evaluated scope e) x) (e.eval host scope)

namespace EvalComposes

variable {host : Host} {scope : ScopeId} {R : {α : Type} → Recorded Memory Error α → Eval α → Prop}

/-- A property of one run is a relation of the run with itself. -/
theorem corresponds (C : EvalComposes host scope R) :
    EvalsCorrespond host .same scope scope R where
  silent h := C.silent h.quiet
  memory hf _ := C.bind (C.silent .memory) hf
  bind := C.bind
  lookup _ := C.lookup _
  assign := C.assign
  withNullSafe := C.withNullSafe
  withPolicy _ := C.withPolicy _
  noting := C.noting

/-- Two properties that compose do so together. -/
theorem and {R' : {α : Type} → Recorded Memory Error α → Eval α → Prop}
    (C : EvalComposes host scope R) (C' : EvalComposes host scope R') :
    EvalComposes host scope fun x y => R x y ∧ R' x y where
  silent h := ⟨C.silent h, C'.silent h⟩
  bind hx hf := ⟨C.bind hx.1 fun a => (hf a).1, C'.bind hx.2 fun a => (hf a).2⟩
  lookup name := ⟨C.lookup name, C'.lookup name⟩
  assign name value := ⟨C.assign name value, C'.assign name value⟩
  withNullSafe h := ⟨C.withNullSafe h.1, C'.withNullSafe h.2⟩
  withPolicy policy _ _ h := ⟨C.withPolicy policy h.1, C'.withPolicy policy h.2⟩
  noting h := ⟨C.noting h.1, C'.noting h.2⟩

/-- What composes is a property of the evaluation of every expression. -/
theorem eval (C : EvalComposes host scope R) (e : Expr) :
    R (.eval host scope e) (e.eval host scope) :=
  C.corresponds.eval e fun _ _ => ⟨⟩

end EvalComposes

/-! ### Runs -/

/-- A property of the parts of statements, and of their twins, that composes. It is stated for the
number of the innermost frame `top` that an action starts with, and of a frame `outer` around it
that the action may name too; `E` is its part for evaluations. -/
structure PartsCompose (config : Config) (outer top : ScopeId)
    (E : ScopeId → {α : Type} → Recorded Memory Error α → Eval α → Prop)
    (R : {α : Type} → Recorded RenderState Stop α → Render α → Prop) : Prop where
  evals : ∀ scope, EvalComposes config.host scope (E scope)
  silent : ∀ {α : Type} {act : Render α}, Render.Quiet config act → R (.silent act) act
  bind : ∀ {α β : Type} {x : Recorded RenderState Stop α} {y : Render α}
    {f : α → Recorded RenderState Stop β} {g : α → Render β},
    R x y → (∀ a, R (f a) (g a)) → R (x >>= f) (y >>= g)
  evalTop : ∀ {α : Type} {x : Recorded Memory Error α} {y : Eval α},
    E top x y → R (.ofEval x) (Render.ofEval y)
  evalOuter : ∀ {α : Type} {x : Recorded Memory Error α} {y : Eval α},
    E outer x y → R (.ofEval x) (Render.ofEval y)
  bindName : ∀ (name : String) (value : Value),
    R (.bindName top name value) (Render.bind top name value)

/-- A property of the actions of a render, and of their twins, that composes. -/
structure RunComposes (config : Config)
    (E : ScopeId → {α : Type} → Recorded Memory Error α → Eval α → Prop)
    (R : ScopeId → ScopeId → {α : Type} → Recorded RenderState Stop α → Render α → Prop) :
    Prop where
  parts : ∀ outer top, PartsCompose config outer top E (R outer top)
  setJump : ∀ {outer top : ScopeId} (kind : Jump),
    R outer top (.silent (Render.setJump kind)) (Render.setJump kind)
  takeLoopJump : ∀ {outer top : ScopeId}, R outer top (.silent takeLoopJump) takeLoopJump
  attempt : ∀ {outer top : ScopeId} {α : Type} {x : Recorded RenderState Stop α} {y : Render α},
    R outer top x y → R outer top x.attempt (Render.attempt y)
  captured : ∀ {outer top : ScopeId} {x : Recorded RenderState Stop Unit} {y : Render Unit},
    R outer top x y → R outer top x.captured (Render.captured y)
  inFrame : ∀ {outer top : ScopeId} {α : Type} {x : ScopeId → Recorded RenderState Stop α}
    {y : ScopeId → Render α}, (∀ frame, R top frame (x frame) (y frame)) →
    R outer top (.inFrame top x) (Render.inFrame top y)
  confined : ∀ {outer top : ScopeId} {α : Type} {x : ScopeId → Recorded RenderState Stop α}
    {y : ScopeId → Render α}, (∀ frame, R top frame (x frame) (y frame)) →
    R outer top (.confined top x) (Render.confined top y)
  noting : ∀ {outer top : ScopeId} {fuel : Nat} {functions : Assoc TemplateFunction}
    {s : Statement} (loops : Nat) {x : Recorded RenderState Stop Unit},
    R outer top x (s.exec config fuel functions top) →
    R outer top (.noting (.executed ⟨fuel, functions, top, loops⟩ s) x)
      (s.exec config fuel functions top)
  directed : ∀ {outer top : ScopeId} (bodies : List (Except Error Unit))
    (result : Except Error Unit),
    R outer top
      (do Recorded.note fun _ => .directed bodies result; .silent (Render.ofExcept result))
      (Render.ofExcept result)

namespace PartsCompose

variable {config : Config}
  {E : ScopeId → {α : Type} → Recorded Memory Error α → Eval α → Prop}
  {R : {α : Type} → Recorded RenderState Stop α → Render α → Prop} {outer top : ScopeId}

variable (C : PartsCompose config outer top E R)

include C

/-- Parts that compose correspond to themselves, in the same frames. -/
theorem corresponds :
    PartsCorrespond config .same outer outer top top (fun scope _ {_} x y => E scope x y) R where
  evalsOuter := (C.evals outer).corresponds
  evalsTop := (C.evals top).corresponds
  silent := C.silent
  bind := C.bind
  evalOuter := C.evalOuter
  evalTop := C.evalTop
  bindName _ := C.bindName

theorem pure {α : Type} (a : α) : R (pure a) (pure a) := C.silent (.pure a)

/-- The evaluation of an expression composes. -/
theorem eval (e : Expr) : R (.ofEval (.eval config.host top e)) (config.eval top e) :=
  C.corresponds.eval e fun _ _ => ⟨⟩

theorem evalAll (es : List Expr) :
    R (.ofEval (.evalAll config.host top es)) (config.evalAll top es) :=
  C.corresponds.evalAll es fun _ _ => ⟨⟩

theorem lookup (name : String) :
    R (.ofEval (.lookup config.host top name)) (Render.ofEval (Eval.lookup config.host top name)) :=
  C.corresponds.lookup ⟨⟩

theorem holds (e : Expr) : R (.holds config top e) (config.holds top e) :=
  C.corresponds.holds e fun _ _ => ⟨⟩

theorem assigns (policy : Policy) (es : List Expr) :
    R (.assigns config top policy es) (config.assign policy top es) :=
  C.corresponds.assigns policy es (fun _ => rfl) fun _ _ => ⟨⟩

/-- The search for an equal value composes. -/
theorem anyIs (subject : Value) (es : List Expr) :
    R (.anyIs config top subject es) (config.anyIs top subject es) :=
  C.corresponds.anyIs subject es fun _ _ => ⟨⟩

/-- So does the choice of a case, which goes by it. -/
theorem chooseCase (subject : Value) (otherwise : Statement) (cases : List Case) :
    R (.chooseCase config top subject otherwise cases)
      (config.chooseCase top subject otherwise cases) := by
  induction cases with
  | nil => exact C.pure _
  | cons c rest ih =>
    cases c with
    | mk values body =>
      -- the values of a case are compared in order, and its body is taken if one of them fits
      refine C.bind (C.anyIs subject values) fun hit => ?_
      split
      · exact C.pure _
      · exact ih

/-- The status of the loop around composes. -/
theorem outerStatus : R (.outerStatus config top) (config.outerStatus top) :=
  C.corresponds.outerStatus ⟨⟩

theorem bindStatus (status : LoopStatus) :
    R (.bindStatus top status) (Stencil.bindStatus top status) :=
  C.bind (C.silent (.onHeap _)) fun v => C.bindName "for" v

theorem goesOn (test : Option Expr) : R (.goesOn config top test) (config.goesOn top test) :=
  C.corresponds.goesOn test rfl fun _ _ => ⟨⟩

/-- The name of a callee composes. -/
theorem calleeName (location : Location) (callee : Callee) :
    R (.calleeName config top location callee) (config.calleeName top location callee) :=
  C.corresponds.calleeName location callee fun _ _ => ⟨⟩

/-- So do the arguments of a call. -/
theorem arguments (function : TemplateFunction) (args : List Expr) (location : Location) :
    R (.arguments config top function args location)
      (config.arguments top function args location) :=
  C.corresponds.arguments function args location fun _ _ => ⟨⟩

theorem bindAll (pairs : List (String × Value)) :
    R (.bindAll top pairs) (Stencil.bindAll top pairs) :=
  C.corresponds.bindAll rfl pairs

end PartsCompose

/-! ### Blocks and loops -/

/-- A property of the actions that blocks and loops are put together from, and of their twins, that
composes: for a loop in the frame `top`, which was opened in `outer`. -/
structure LoopsCompose (config : Config) (outer top : ScopeId)
    (R : {α : Type} → Recorded RenderState Stop α → Render α → Prop) : Prop where
  pure : ∀ {α : Type} (a : α), R (pure a) (pure a)
  throw : ∀ {α : Type} (stop : Stop), R (.silent (throw stop)) (throw stop : Render α)
  bind : ∀ {α β : Type} {x : Recorded RenderState Stop α} {y : Render α}
    {f : α → Recorded RenderState Stop β} {g : α → Render β},
    R x y → (∀ a, R (f a) (g a)) → R (x >>= f) (y >>= g)
  heap : R (.silent Render.heap) Render.heap
  jump : R (.silent Render.jump) Render.jump
  onHeap : ∀ {α : Type} (f : Heap → α × Heap),
    R (.silent (Render.ofEval (Eval.onHeap f))) (Render.ofEval (Eval.onHeap f))
  takeLoopJump : R (.silent takeLoopJump) takeLoopJump
  bindName : ∀ (name : String) (value : Value),
    R (.bindName top name value) (Render.bind top name value)
  /-- The collection of a loop is evaluated in the frame around the loop. -/
  collection : ∀ e, R (.ofEval (.eval config.host outer e)) (config.eval outer e)
  outerStatus : R (.outerStatus config top) (config.outerStatus top)
  goesOn : ∀ test, R (.goesOn config top test) (config.goesOn top test)
  assigns : ∀ es, R (.assigns config top .inner es) (config.assign .inner top es)

namespace LoopsCompose

variable {config : Config} {outer top : ScopeId}
  {R : {α : Type} → Recorded RenderState Stop α → Render α → Prop}
  (C : LoopsCompose config outer top R)

include C

/-- Loops that compose correspond to themselves. -/
theorem corresponds : LoopsCorrespond config (fun _ => True) outer outer top top R where
  pure := C.pure
  throw := C.throw
  bind := C.bind
  heap := C.heap
  onHeap := C.onHeap
  takeLoopJump := C.takeLoopJump
  bindName := C.bindName
  collection e _ := C.collection e
  outerStatus := C.outerStatus
  goesOn test _ := C.goesOn test
  assigns es _ := C.assigns es

/-- A block composes if its statements do. -/
theorem runBlock {x : Statement → Recorded RenderState Stop Unit} {y : Statement → Render Unit}
    {statements : List Statement} (h : ∀ s ∈ statements, R (x s) (y s)) :
    R (.runBlock x statements) (Stencil.runBlock y statements) :=
  Recorded.runBlock_corresponds (C.pure ()) C.bind C.jump h

/-- A loop composes if its body does. -/
theorem runLoop {x : Recorded RenderState Stop Unit} {y : Render Unit} (fuel : Nat)
    (head : LoopHead) (h : R x y) :
    R (.runLoop config fuel head outer top x) (config.runLoop fuel head outer top y) :=
  C.corresponds.runLoop fuel head (fun _ _ => ⟨⟩) h

end LoopsCompose

namespace RunComposes

variable {config : Config}
  {E : ScopeId → {α : Type} → Recorded Memory Error α → Eval α → Prop}
  {R : ScopeId → ScopeId → {α : Type} → Recorded RenderState Stop α → Render α → Prop}

/-- A property of one run is a relation of the run with itself. -/
theorem corresponds (C : RunComposes config E R) :
    RunsCorrespond config .same (fun scope _ {_} x y => E scope x y)
      (fun outer _ top _ {_} x y => R outer top x y) where
  -- the frames on both sides are the same, so nothing is asked of names and bindings
  parts := by
    rintro outer _ top _ rfl rfl
    exact (C.parts outer top).corresponds
  setJump := C.setJump
  takeLoopJump := C.takeLoopJump
  attempt := C.attempt
  captured := C.captured
  inFrame := by
    rintro _ _ _ _ _ _ _ rfl h
    exact C.inFrame fun frame => h frame frame rfl
  confined := by
    rintro _ _ _ _ _ _ _ rfl h
    exact C.confined fun frame => h frame frame rfl
  noting := by
    rintro _ _ _ _ _ _ _ _ loops rfl h
    exact C.noting loops (h fun _ _ => ⟨⟩)
  directed := C.directed

/-- What composes is a property of the execution of every statement. -/
theorem exec (C : RunComposes config E R) (fuel : Nat) (functions : Assoc TemplateFunction)
    (s : Statement) (outer scope : ScopeId) (loops : Nat) :
    R outer scope (.exec config fuel functions s scope loops)
      (s.exec config fuel functions scope) :=
  have hsame (i : ScopeId) : Matching.same.sees i i := rfl
  C.corresponds.exec fuel functions s (hsame outer) (hsame scope) (.inl rfl) loops

/-- What composes is a property of every render. -/
theorem render (C : RunComposes config E R) (fuel : Nat) (unit : Compiled) :
    R 0 0 (unit.recorded config fuel) (unit.render config fuel) :=
  have P := C.parts 0 0
  P.bind (C.exec fuel unit.functions unit.body 0 0 0) fun _ => P.silent .flush

end RunComposes

/-! ### Recording changes nothing -/

/-- A moment is what it says: the statement or the expression runs from the state before to the
result and the state after. -/
def Moment.Genuine (config : Config) : Moment → Prop
  | .executed place s before result after =>
    (s.exec config place.fuel place.functions place.scope).runOn before = (result, after)
  | .evaluated scope e before result after =>
    (e.eval config.host scope).runOn before = (result, after)
  | .read .. | .written .. | .directed .. => True

namespace Recorded

variable {σ τ ε ε' α β : Type}

/-- A recorded action goes on with the result of the one before it, if there is one. -/
theorem outcome_bind (x : Recorded σ ε α) (f : α → Recorded σ ε β) (s : σ) :
    (x >>= f).outcome s =
      match x.outcome s with
      | (.ok a, after) => (f a).outcome after
      | (.error e, after) => (.error e, after) := by
  rcases hx : x s with ⟨⟨_ | a, after⟩, record⟩ <;> simp only [outcome, Bind.bind, hx]

/-- The record of an action and of what follows it, if there is anything to go on with. -/
theorem record_bind (x : Recorded σ ε α) (f : α → Recorded σ ε β) (s : σ) :
    (x >>= f).record s =
      match x.outcome s with
      | (.ok a, after) => x.record s ++ (f a).record after
      | (.error _, _) => x.record s := by
  rcases hx : x s with ⟨⟨_ | a, after⟩, moments⟩ <;> simp only [outcome, record, Bind.bind, hx]

/-- The moments of an action and of what follows it. -/
theorem mem_record_bind {x : Recorded σ ε α} {f : α → Recorded σ ε β} {s : σ} {moment : Moment}
    (h : moment ∈ (x >>= f).record s) :
    moment ∈ x.record s ∨
      ∃ a after, x.outcome s = (.ok a, after) ∧ moment ∈ (f a).record after := by
  rw [record_bind] at h
  rcases hx : x.outcome s with ⟨_ | a, after⟩
  · rw [hx] at h
    exact .inl h
  · rw [hx] at h
    exact (List.mem_append.mp h).imp_right fun hlater => ⟨a, after, rfl, hlater⟩

/-- What holds of all moments of an action, and of those of what follows it from where it has ended,
holds of all moments of both. -/
theorem forall_record_bind {P : Moment → Prop} {x : Recorded σ ε α} {f : α → Recorded σ ε β} {s : σ}
    (hx : ∀ moment ∈ x.record s, P moment)
    (hf : ∀ a after, x.outcome s = (.ok a, after) → ∀ moment ∈ (f a).record after, P moment) :
    ∀ moment ∈ (x >>= f).record s, P moment := by
  intro moment h
  rcases mem_record_bind h with hhere | ⟨a, after, houtcome, hlater⟩
  · exact hx moment hhere
  · exact hf a after houtcome moment hlater

/-- What two actions both leave alone is left alone by both together. -/
theorem outcome_bind_same {γ : Type} (read : σ → γ) {x : Recorded σ ε α} {f : α → Recorded σ ε β}
    (hx : ∀ s, read (x.outcome s).2 = read s) (hf : ∀ a s, read ((f a).outcome s).2 = read s)
    (s : σ) : read ((x >>= f).outcome s).2 = read s := by
  have hfirst := hx s
  rw [outcome_bind]
  rcases houtcome : x.outcome s with ⟨_ | a, after⟩
  · rwa [houtcome] at hfirst
  · rw [houtcome] at hfirst
    exact (hf a after).trans hfirst

/-- The record of a noted action ends with how it has ended. -/
theorem mem_record_noting {moment : σ → Except ε α → σ → Moment} {x : Recorded σ ε α} {s : σ}
    {m : Moment} (h : m ∈ (noting moment x).record s) :
    m ∈ x.record s ∨ m = moment s (x.outcome s).1 (x.outcome s).2 := by
  rcases List.mem_append.mp h with hinner | hlast
  · exact .inl hinner
  · exact .inr (List.mem_singleton.mp hlast)

/-- The recorded frame is opened and dropped as the frame is. -/
@[simp] theorem outcome_inFrame (parent : ScopeId) (x : ScopeId → Recorded RenderState Stop α)
    (st : RenderState) :
    (inFrame parent x).outcome st =
      (((x st.memory.scopes.frames.size).outcome (st.opened parent)).1,
        ((x st.memory.scopes.frames.size).outcome (st.opened parent)).2.dropped
          st.memory.scopes.frames.size) := rfl

/-- What is left of an action behind its frame is what it has left inside, without the frame. -/
theorem inside_of_outcome_inFrame {parent : ScopeId} {x : ScopeId → Recorded RenderState Stop α}
    {st after : RenderState} {result : Except Stop α}
    (h : (inFrame parent x).outcome st = (result, after)) :
    ∃ inner, (x st.memory.scopes.frames.size).outcome (st.opened parent) = (result, inner) ∧
      after = inner.dropped st.memory.scopes.frames.size := by
  rw [outcome_inFrame] at h
  obtain ⟨rfl, rfl⟩ := Prod.mk.inj h
  exact ⟨_, rfl, rfl⟩

/-- A confined run forgets its jump. -/
@[simp] theorem outcome_confined (parent : ScopeId) (x : ScopeId → Recorded RenderState Stop α)
    (st : RenderState) :
    (confined parent x).outcome st =
      (((inFrame parent x).outcome st).1,
        ((Render.setJump .none).runOn ((inFrame parent x).outcome st).2).2) := rfl

/-- A captured run has an output of its own. -/
@[simp] theorem outcome_captured (x : Recorded RenderState Stop Unit) (st : RenderState) :
    x.captured.outcome st =
      ((x.outcome { st with output := .unlimited }).1.map fun _ =>
          (x.outcome { st with output := .unlimited }).2.output.received,
        { (x.outcome { st with output := .unlimited }).2 with output := st.output }) := rfl

/-- An attempt has what went wrong for its result. -/
@[simp] theorem outcome_attempt (x : Recorded RenderState Stop α) (st : RenderState) :
    x.attempt.outcome st =
      match x.outcome st with
      | (.ok a, after) => (.ok (.ok a), after)
      | (.error (.error error), after) => (.ok (.error error), after)
      | (.error .outOfFuel, after) => (.error .outOfFuel, after)
      | (.error .blocked, after) => (.error .blocked, after) := rfl

/-- A recorded action does what an action does, and its moments are what they say. -/
structure Faithful (config : Config) (x : Recorded σ ε α) (act : ExceptT ε (StateM σ) α) :
    Prop where
  outcome : ∀ s, x.outcome s = act s
  genuine : ∀ s, ∀ moment ∈ x.record s, moment.Genuine config

namespace Faithful

variable {config : Config}

/-- A silent action is faithful: it records no moment. -/
theorem silent (act : ExceptT ε (StateM σ) α) : Faithful config (silent act) act :=
  ⟨fun _ => rfl, fun _ _ h => absurd h List.not_mem_nil⟩

/-- Faithful actions go on with faithful actions. -/
theorem bind {x : Recorded σ ε α} {y : ExceptT ε (StateM σ) α} {f : α → Recorded σ ε β}
    {g : α → ExceptT ε (StateM σ) β} (hx : Faithful config x y)
    (hf : ∀ a, Faithful config (f a) (g a)) : Faithful config (x >>= f) (y >>= g) where
  outcome s := by
    rw [outcome_bind, hx.outcome]
    change _ = (match y s with | (result, after) => ExceptT.bindCont g result after)
    rcases y s with ⟨_ | a, after⟩
    · rfl
    · exact (hf a).outcome after
  genuine s := forall_record_bind (hx.genuine s) fun a after _ => (hf a).genuine after

/-- Notes of what is read, written or directed say nothing that could be wrong. -/
theorem noted {x : Recorded σ ε α} {act : ExceptT ε (StateM σ) α} {moment : σ → Moment}
    (hx : Faithful config x act) (hmoment : ∀ s, (moment s).Genuine config) :
    Faithful config (note moment >>= fun _ => x) act where
  outcome s := hx.outcome s
  genuine s m h := by
    rcases List.mem_cons.mp h with rfl | hlater
    · exact hmoment s
    · exact hx.genuine s m hlater

/-- A faithful action is noted faithfully, if the moment of it is genuine. -/
theorem noting {x : Recorded σ ε α} {act : ExceptT ε (StateM σ) α}
    {moment : σ → Except ε α → σ → Moment} (hx : Faithful config x act)
    (hmoment : ∀ s, (moment s (act s).1 (act s).2).Genuine config) :
    Faithful config (noting moment x) act where
  outcome := hx.outcome
  genuine s m h := by
    rcases mem_record_noting h with hinner | rfl
    · exact hx.genuine s m hinner
    · rw [hx.outcome]
      exact hmoment s

/-- A faithful run inside of another one, entered and left as the action does it. -/
theorem inside {x : Recorded τ ε α} {y : ExceptT ε (StateM τ) α} {act : ExceptT ε' (StateM σ) β}
    {enter : σ → τ} {leave : σ → Except ε α × τ → Except ε' β × σ} (hx : Faithful config x y)
    (hact : ∀ s, act s = leave s (y (enter s))) : Faithful config (inside enter leave x) act where
  outcome s := by
    rw [hact, ← hx.outcome]
    rfl
  genuine s := hx.genuine (enter s)

/-- A faithful run in a frame of its own. -/
theorem inFrame {x : ScopeId → Recorded RenderState Stop α} {y : ScopeId → Render α}
    (hx : ∀ frame, Faithful config (x frame) (y frame)) (parent : ScopeId) :
    Faithful config (inFrame parent x) (Render.inFrame parent y) where
  outcome st := by
    rw [outcome_inFrame, (hx _).outcome]
    rfl
  genuine st := (hx st.memory.scopes.frames.size).genuine _

/-- Evaluations are faithful by their rules. -/
theorem evalComposes (config : Config) (scope : ScopeId) :
    EvalComposes config.host scope (Faithful config) where
  silent _ := .silent _
  bind := .bind
  lookup _ := .noted (.silent _) fun _ => ⟨⟩
  assign _ _ := .noted (.silent _) fun _ => ⟨⟩
  withNullSafe h := .inside h fun _ => rfl
  withPolicy _ _ _ h := .inside h fun _ => rfl
  noting h := .noting h fun _ => rfl

/-- So are runs. -/
theorem runComposes (config : Config) :
    RunComposes config (fun _ => Faithful config) (fun _ _ => Faithful config) where
  parts _ _ :=
    { evals := evalComposes config
      silent _ := .silent _
      bind := .bind
      evalTop h := .inside h fun _ => rfl
      evalOuter h := .inside h fun _ => rfl
      bindName _ _ := .noted (.silent _) fun _ => ⟨⟩ }
  setJump _ := .silent _
  takeLoopJump := .silent _
  attempt h := .inside h fun _ => rfl
  captured h := .inside h fun _ => rfl
  inFrame h := .inFrame h _
  confined h := .inside (.inFrame h _) fun _ => rfl
  noting _ _ h := .noting h fun _ => rfl
  directed _ _ := .noted (.silent _) fun _ => ⟨⟩

end Faithful

/-- What a recorded evaluation comes to is what the evaluation does. -/
theorem outcome_eval (host : Host) (scope : ScopeId) (e : Expr) (m : Memory) :
    (eval host scope e).outcome m = (e.eval host scope).runOn m :=
  ((Faithful.evalComposes { host } scope).eval e).outcome m

/-- Likewise if it goes well within a run. -/
theorem outcome_ofEval {host : Host} {scope : ScopeId} {e : Expr} {v : Value} {st : RenderState}
    {m : Memory} (he : (e.eval host scope).runOn st.memory = (.ok v, m)) :
    (ofEval (eval host scope e)).outcome st = (.ok v, { st with memory := m }) := by
  have houtcome := (outcome_eval host scope e st.memory).trans he
  change (((eval host scope e).outcome st.memory).1.mapError Stop.ofError,
    { st with memory := ((eval host scope e).outcome st.memory).2 }) = _
  rw [houtcome]
  rfl

/-- **Recording changes nothing.** The recorded twin of a statement does what the statement does,
and every moment of its record is what it says. -/
theorem exec_faithful (config : Config) (fuel : Nat) (functions : Assoc TemplateFunction)
    (s : Statement) (scope : ScopeId) (loops : Nat) :
    Faithful config (exec config fuel functions s scope loops)
      (s.exec config fuel functions scope) :=
  (Faithful.runComposes config).exec fuel functions s scope scope loops

end Recorded

/-- **A recorded render is faithful to the render.** -/
theorem Compiled.recorded_faithful (config : Config) (fuel : Nat) (unit : Compiled) :
    (unit.recorded config fuel).Faithful config (unit.render config fuel) :=
  (Recorded.Faithful.runComposes config).render fuel unit

end Stencil
