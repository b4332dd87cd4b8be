import Stencil.Render.Exec

/-!
# Records of runs

What happens in the middle of a run leaves no trace in its outcome: where a name was looked up, in
which frame a statement was executed, whether a jump was pending when a function returned. A
**recorded** action is an action that also answers with the list of its **moments**, each with the
state at that time. Every action of a render has a recorded twin here, with the same steps in the
same order; the twin of a statement notes in addition how many loop bodies are around it in its file
and function, and the twin of a custom directive how the renderings of its body ended.

Recording changes nothing: the outcome of a twin is the outcome of the action
(`Recorded.exec_faithful` in `Stencil.Proofs.Render.Composition`).

Main definitions: `Moment`, `Recorded`, `Recorded.eval`, `Recorded.exec`, `Compiled.recorded`.
-/

namespace Stencil

/-! ### Moments -/

/-- Where a statement is executed. -/
structure Place where
  fuel : Nat
  functions : Assoc TemplateFunction
  scope : ScopeId
  /-- How many loop bodies are around the statement, in its file and function. -/
  loops : Nat

/-- What happens in a run, with the state that it happens in. -/
inductive Moment where
  /-- A statement was executed. -/
  | executed (place : Place) (s : Statement) (before : RenderState) (result : Except Stop Unit)
    (after : RenderState)
  /-- An expression was evaluated. -/
  | evaluated (scope : ScopeId) (e : Expr) (before : Memory) (result : Except Error Value)
    (after : Memory)
  /-- A name is looked up. -/
  | read (scope : ScopeId) (name : String) (m : Memory)
  /-- A name is assigned to. -/
  | written (policy : Policy) (scope : ScopeId) (name : String) (value : Value) (m : Memory)
  /-- A custom directive ends, after renderings of its body that have ended in the given ways. -/
  | directed (bodies : List (Except Error Unit)) (result : Except Error Unit)

/-- The state in which a frame has just been opened. -/
def RenderState.opened (st : RenderState) (parent : ScopeId) : RenderState :=
  { st with memory := { st.memory with scopes := (st.memory.scopes.push parent).2 } }

/-- The state in which a frame has just been dropped. -/
def RenderState.dropped (st : RenderState) (frame : ScopeId) : RenderState :=
  { st with memory := { st.memory with scopes := st.memory.scopes.pop frame } }

/-- A frame is opened for the time of an action and dropped behind it. -/
theorem Render.runOn_inFrame {α : Type} (parent : ScopeId) (act : ScopeId → Render α)
    (st : RenderState) :
    (Render.inFrame parent act).runOn st =
      (((act st.memory.scopes.frames.size).runOn (st.opened parent)).1,
        ((act st.memory.scopes.frames.size).runOn (st.opened parent)).2.dropped
          st.memory.scopes.frames.size) := rfl

/-- An action with a record of what happens in it. -/
def Recorded (σ ε α : Type) : Type := σ → (Except ε α × σ) × List Moment

namespace Recorded

variable {σ τ ε ε' α β : Type}

/-- The outcome of a recorded action. -/
def outcome (x : Recorded σ ε α) (s : σ) : Except ε α × σ := (x s).1

/-- What happens in a recorded action, the first moment first. -/
def record (x : Recorded σ ε α) (s : σ) : List Moment := (x s).2

instance : Monad (Recorded σ ε) where
  pure a := fun s => ((.ok a, s), [])
  bind x f := fun s =>
    match x s with
    | ((.ok a, after), record) =>
      let (outcome, more) := f a after
      (outcome, record ++ more)
    | ((.error e, after), record) => ((.error e, after), record)

/-- An action in which nothing of note happens. -/
def silent (act : ExceptT ε (StateM σ) α) : Recorded σ ε α := fun s => (act s, [])

/-- Notes what happens now. -/
def note (moment : σ → Moment) : Recorded σ ε Unit := fun s => ((.ok (), s), [moment s])

/-- Notes how an action has ended. -/
def noting (moment : σ → Except ε α → σ → Moment) (x : Recorded σ ε α) : Recorded σ ε α :=
  fun s =>
    let ((result, after), record) := x s
    ((result, after), record ++ [moment s result after])

/-- Runs an action on another state, which is made from the state at hand and taken back to it. -/
def inside (enter : σ → τ) (leave : σ → Except ε α × τ → Except ε' β × σ) (x : Recorded τ ε α) :
    Recorded σ ε' β := fun s =>
  let (outcome, record) := x (enter s)
  (leave s outcome, record)

/-! ### Expressions -/

/-- The twin of `Eval.lookup`. -/
def lookup (host : Host) (scope : ScopeId) (name : String) : Recorded Memory Error Value := do
  note (.read scope name)
  silent (Eval.lookup host scope name)

/-- The twin of `Eval.assign`. -/
def assign (scope : ScopeId) (name : String) (value : Value) : Recorded Memory Error Unit := do
  note fun m => .written m.control.policy scope name value m
  silent (Eval.assign scope name value)

/-- The twin of `Eval.withNullSafe`. -/
def withNullSafe (x : Recorded Memory Error α) : Recorded Memory Error α :=
  inside (fun m => { m with control := { m.control with nullSafe := true } })
    (fun m r =>
      (r.1, { r.2 with control := { r.2.control with nullSafe := m.control.nullSafe } })) x

/-- The twin of `Eval.withPolicy`. -/
def withPolicy (policy : Policy) (x : Recorded Memory Error α) : Recorded Memory Error α :=
  inside (fun m => { m with control := { m.control with policy } })
    (fun m r => (r.1, { r.2 with control := { r.2.control with policy := m.control.policy } })) x

/-- The twin of `Host.step`. -/
def step (host : Host) (scope : ScopeId) (s : Step) (early : Bool) (name : String)
    (location : Location) : Recorded Memory Error Value := do
  let current ← lookup host scope name
  if current.isNumber then
    let updated ← silent (Eval.ofExcept location ((← silent Eval.heap).arith s.op current (.int 1)))
    assign scope name updated
    return if early then updated else current
  else silent (Eval.raise (.stepOperand s name current.typeName) location)

mutual

/-- The twin of `Expr.eval`. -/
def eval (host : Host) (scope : ScopeId) (e : Expr) : Recorded Memory Error Value :=
  noting (.evaluated scope e) <|
    match e with
    | .const v => return v
    | .var name => lookup host scope name
    | .assign name value _ => do
      let v ← eval host scope value
      assign scope name v
      return v
    | .assignAt name key value location => do
      let target ← lookup host scope name
      let k ← eval host scope key
      let v ← eval host scope value
      silent (Eval.ofExcept location (← silent (Eval.onHeap (·.writeIndex name target k v))))
      return v
    | .ternary test yes no => do
      let t ← eval host scope test
      if (← silent Eval.heap).isTruthy t then eval host scope yes else eval host scope no
    | .or left right => do
      let a ← eval host scope left
      if (← silent Eval.heap).isTruthy a then return .bool true
      else
        let b ← eval host scope right
        return .bool ((← silent Eval.heap).isTruthy b)
    | .and left right => do
      let a ← eval host scope left
      if (← silent Eval.heap).isTruthy a then
        let b ← eval host scope right
        return .bool ((← silent Eval.heap).isTruthy b)
      else return .bool false
    | .not operand => do
      let v ← eval host scope operand
      return .bool (!(← silent Eval.heap).isTruthy v)
    | .compare op left right location => do
      let a ← eval host scope left
      let b ← eval host scope right
      let holds ← silent (Eval.ofExcept location ((← silent Eval.heap).compare op a b))
      return .bool holds
    | .arith op left right location => do
      let a ← eval host scope left
      let b ← eval host scope right
      silent (Eval.ofExcept location ((← silent Eval.heap).arith op a b))
    | .quiet operand => withNullSafe (eval host scope operand)
    | .coalesce operand fallback => do
      let v ← withNullSafe (eval host scope operand)
      if v.isNull then eval host scope fallback else return v
    | .sign s operand location => do
      let v ← eval host scope operand
      silent (Eval.ofExcept location (v.signed s))
    | .step s early name location => step host scope s early name location
    | .staticField space name location =>
      match (host.namespaces.get? space).bind (·.fields.get? name) with
      | some v => return v
      | none => silent (Eval.raise (.noStaticField space name) location)
    | .staticCall space name args location =>
      match (host.namespaces.get? space).bind (·.methods.get? name) with
      | some operation => do
        let vs ← evalAll host scope args
        silent (Eval.runOperation operation vs (space ++ "::" ++ name) location)
      | none => silent (Eval.raise (.noStaticMethod space name) location)
    | .call name args location =>
      match host.methods.get? name with
      | some operation => do
        let vs ← evalAll host scope args
        silent (Eval.runOperation operation vs name location)
      | none => silent (Eval.raise (.noSharedMethod name) location)
    | .index target key location => do
      let t ← eval host scope target
      let k ← eval host scope key
      let m ← silent get
      silent (Eval.ofExcept location (m.heap.readIndex m.control.nullSafe t k))
    | .field target name location => do
      let t ← eval host scope target
      let m ← silent get
      silent (Eval.ofExcept location (m.heap.readField m.control.nullSafe t name))
    | .method target name args location => do
      let t ← eval host scope target
      if t.isNull then
        if (← silent get).control.nullSafe then return .null
        else silent (Eval.raise (.methodOfNull name) location)
      else
        let vs ← evalAll host scope args
        silent (host.callMethod t name vs location)
    | .map keys values => do
      let vs ← evalAll host scope values
      silent (Eval.onHeap (·.newMap (.ofList (keys.zip vs))))
    | .list items => do
      let vs ← evalAll host scope items
      silent (Eval.onHeap (·.newList vs.toArray))
    | .range first last location => do
      let a ← eval host scope first
      let b ← eval host scope last
      silent (Eval.ofExcept location (a.rangeTo b))

/-- The twin of `Expr.evalAll`. -/
def evalAll (host : Host) (scope : ScopeId) : List Expr → Recorded Memory Error (List Value)
  | [] => return []
  | e :: rest => do
    let v ← eval host scope e
    let vs ← evalAll host scope rest
    return v :: vs

end

/-! ### Actions of a render -/

/-- The twin of `Render.ofEval`. -/
def ofEval (x : Recorded Memory Error α) : Recorded RenderState Stop α :=
  inside RenderState.memory (fun st r => (r.1.mapError .ofError, { st with memory := r.2 })) x

/-- The twin of `Render.bind`. -/
def bindName (scope : ScopeId) (name : String) (value : Value) :
    Recorded RenderState Stop Unit := do
  note fun st => .written .inner scope name value st.memory
  silent (Render.bind scope name value)

/-- The twin of `Render.attempt`. -/
def attempt (x : Recorded RenderState Stop α) : Recorded RenderState Stop (Except Error α) :=
  inside id (fun _ (r : Except Stop α × RenderState) =>
    match r with
    | (.ok a, after) => (.ok (.ok a), after)
    | (.error (.error error), after) => (.ok (.error error), after)
    | (.error .outOfFuel, after) => (.error .outOfFuel, after)
    | (.error .blocked, after) => (.error .blocked, after)) x

/-- The twin of `Render.inFrame`. -/
def inFrame (parent : ScopeId) (x : ScopeId → Recorded RenderState Stop α) :
    Recorded RenderState Stop α := fun st =>
  let frame := st.memory.scopes.frames.size
  inside (·.opened parent) (fun _ r => (r.1, r.2.dropped frame)) (x frame) st

/-- The twin of `Render.confined`. -/
def confined (parent : ScopeId) (x : ScopeId → Recorded RenderState Stop α) :
    Recorded RenderState Stop α :=
  inside id (fun _ (result, after) => (result, ((Render.setJump .none).runOn after).2))
    (inFrame parent x)

/-- The twin of `Render.captured`. -/
def captured (x : Recorded RenderState Stop Unit) : Recorded RenderState Stop String :=
  inside (fun st => { st with output := .unlimited })
    (fun st (result, after) =>
      (result.map fun _ => after.output.received, { after with output := st.output })) x

/-! ### The parts of statements -/

section Parts

variable (config : Config) (scope frame : ScopeId)

/-- The twin of `Config.holds`. -/
def holds (e : Expr) : Recorded RenderState Stop Bool := do
  let v ← ofEval (eval config.host scope e)
  return (← silent Render.heap).isTruthy v

/-- The twin of `Config.assign`. -/
def assigns (policy : Policy) (es : List Expr) : Recorded RenderState Stop Unit := do
  let _ ← ofEval (withPolicy policy (evalAll config.host scope es))

/-- The twin of `Config.anyIs`. -/
def anyIs (subject : Value) : List Expr → Recorded RenderState Stop Bool
  | [] => return false
  | e :: rest => do
    let v ← ofEval (eval config.host scope e)
    if (← silent Render.heap).same v subject then return true else anyIs subject rest

/-- The twin of `Config.chooseCase`. -/
def chooseCase (subject : Value) (otherwise : Statement) :
    List Case → Recorded RenderState Stop Statement
  | [] => return otherwise
  | .mk values body :: rest => do
    if ← anyIs config scope subject values then return body
    else chooseCase subject otherwise rest

/-- The twin of `Config.outerStatus`. -/
def outerStatus : Recorded RenderState Stop Value := do
  match ← ofEval (lookup config.host frame "for") with
  | .status id => return .status id
  | _ => return .null

/-- The twin of `bindStatus`. -/
def bindStatus (status : LoopStatus) : Recorded RenderState Stop Unit := do
  let v ← silent (Render.ofEval (Eval.onHeap (·.newStatus status)))
  bindName frame "for" v

/-- The twin of `Config.goesOn`. -/
def goesOn : Option Expr → Recorded RenderState Stop Bool
  | none => return true
  | some test => do
    let v ← ofEval (withPolicy .inner (eval config.host frame test))
    return (← silent Render.heap).isTruthy v

/-- The twin of `Config.calleeName`. -/
def calleeName (location : Location) : Callee → Recorded RenderState Stop String
  | .named name => return name
  | .computed e => do
    match ← ofEval (eval config.host scope e) with
    | .str name => return name
    | v => silent (Render.raise (.calleeNotText v.typeName) location)

/-- The twin of `Config.arguments`. -/
def arguments (function : TemplateFunction) (args : List Expr) (location : Location) :
    Recorded RenderState Stop (List Value) :=
  if args.length = function.parameters.length then ofEval (evalAll config.host scope args)
  else
    silent (Render.raise (.wrongArgumentCount function.name function.location
      function.parameters.length args.length) location)

/-- The twin of `bindAll`. -/
def bindAll : List (String × Value) → Recorded RenderState Stop Unit
  | [] => pure ()
  | (name, v) :: rest => do
    bindName frame name v
    bindAll rest

end Parts

/-! ### Blocks, loops and scripts -/

/-- The twin of `runBlock`. -/
def runBlock (run : Statement → Recorded RenderState Stop Unit) :
    List Statement → Recorded RenderState Stop Unit
  | [] => pure ()
  | s :: rest => do
    run s
    if (← silent Render.jump) = .none then runBlock run rest else pure ()

/-- The twin of `walkTurns`. -/
def walkTurns (item : String) (frame : ScopeId) (outer : Value)
    (body : Recorded RenderState Stop Unit) : Nat → Walk → Nat → Recorded RenderState Stop Bool
  | 0, _, _ => silent (throw .outOfFuel)
  | fuel + 1, walk, index => do
    match ← silent (Render.ofEval (Eval.onHeap walk.next?)) with
    | none => return 0 < index
    | some (v, walk) => do
      let last := !walk.hasNext (← silent Render.heap)
      bindName frame item v
      bindStatus frame ⟨index, .walking walk.size? last, outer⟩
      body
      if ← silent takeLoopJump then return true
      else walkTurns item frame outer body fuel walk (index + 1)

/-- The twin of `Config.countTurns`. -/
def countTurns (config : Config) (test : Option Expr) (update : List Expr) (frame : ScopeId)
    (outer : Value) (body : Recorded RenderState Stop Unit) :
    Nat → Nat → Recorded RenderState Stop Bool
  | 0, _ => silent (throw .outOfFuel)
  | fuel + 1, index => do
    if ← goesOn config frame test then
      bindStatus frame ⟨index, .counting, outer⟩
      body
      if ← silent takeLoopJump then return true
      else
        assigns config frame .inner update
        countTurns config test update frame outer body fuel (index + 1)
    else return 0 < index

/-- The twin of `Config.runLoop`. -/
def runLoop (config : Config) (fuel : Nat) (head : LoopHead) (scope frame : ScopeId)
    (body : Recorded RenderState Stop Unit) : Recorded RenderState Stop Bool := do
  match head with
  | .each item collection => do
    let v ← ofEval (eval config.host scope collection)
    let outer ← outerStatus config frame
    let walk ← silent (Render.ofEval (Eval.onHeap (Walk.ofValue v)))
    walkTurns item frame outer body fuel walk 0
  | .counting start test update => do
    let outer ← outerStatus config frame
    assigns config frame .inner start
    countTurns config test update frame outer body fuel 0

/-- The twin of `runScript`, for a script that has rendered its body before with the given ends. -/
def runScript (config : Config) (scope : ScopeId) (body : Recorded RenderState Stop Unit) :
    List (Except Error Unit) → Script → Recorded RenderState Stop Unit
  | bodies, .stop result => do
    note fun _ => .directed bodies result
    silent (Render.ofExcept result)
  | bodies, .writeText text next => do
    runScript config scope body bodies (next (← silent (Render.attempt (Render.write text))))
  | bodies, .writeValue v next => do
    runScript config scope body bodies (next (← silent (Render.attempt (Render.writeValue v))))
  | bodies, .renderBody next => do
    let result ← attempt body
    runScript config scope body (bodies ++ [result]) (next result)
  | bodies, .renderToText next => do
    let result ← attempt (captured body)
    runScript config scope body (bodies ++ [result.map fun _ => ()]) (next result)
  | bodies, .lookup name next => do
    runScript config scope body bodies (next (← ofEval (lookup config.host scope name)))
  | bodies, .bind name v next => do
    bindName scope name v
    runScript config scope body bodies next
  | bodies, .inspect next => do
    runScript config scope body bodies (next (← silent Render.heap))
  | bodies, .update change next => do
    silent (Render.onMemory fun m => { m with heap := change m.heap })
    runScript config scope body bodies next

/-! ### Statements -/

/-- The twin of `Statement.exec`, for a statement with a number of loop bodies around it. -/
def exec (config : Config) : Nat → Assoc TemplateFunction → Statement → ScopeId → Nat →
    Recorded RenderState Stop Unit
  | 0, functions, s, scope, loops =>
    noting (.executed ⟨0, functions, scope, loops⟩ s) (silent (throw .outOfFuel))
  | fuel + 1, functions, s, scope, loops =>
    noting (.executed ⟨fuel + 1, functions, scope, loops⟩ s) <|
      match s with
      | .nothing | .definition _ => pure ()
      | .text content => silent (Render.write content)
      | .output value => do silent (Render.writeValue (← ofEval (eval config.host scope value)))
      | .condition test yes no => do
        if ← holds config scope test then exec config fuel functions yes scope loops
        else exec config fuel functions no scope loops
      | .loop head body otherwise =>
        inFrame scope fun frame => do
          let turn := exec config fuel functions body frame (loops + 1)
          if ← runLoop config fuel head scope frame turn then pure ()
          else exec config fuel functions otherwise frame loops
      | .switch subject cases otherwise => do
        let v ← ofEval (eval config.host scope subject)
        let body ← chooseCase config scope v otherwise cases
        exec config fuel functions body scope loops
      | .call callee args ifDefined location => do
        let name ← calleeName config scope location callee
        match ← silent (config.findFunction functions name) with
        | some function => do
          let values ← arguments config scope function args location
          -- The body of a function is in no loop of the caller.
          confined scope fun frame => do
            bindAll frame (function.parameters.zip values)
            exec config fuel functions function.body frame 0
        | none =>
          if ifDefined then pure () else silent (Render.raise (.undefinedFunction name) location)
      | .inlined assignments body =>
        confined scope fun frame => do
          assigns config frame .inner assignments
          exec config fuel functions body frame 0
      | .render file assignments site location => do
        let unit ← silent (config.rendered site file location)
        confined scope fun frame => do
          assigns config frame .inner assignments
          exec config fuel unit.functions unit.body frame 0
      | .assign policy assignments => assigns config scope policy assignments
      | .jump kind => silent (Render.setJump kind)
      | .custom directive args body location => do
        let values ← ofEval (evalAll config.host scope args)
        runScript config scope (exec config fuel functions body scope loops) []
          (directive.run location values)
      | .block statements => runBlock (fun s => exec config fuel functions s scope loops) statements

end Recorded

/-- The twin of `Compiled.render`. -/
def Compiled.recorded (config : Config) (fuel : Nat) (unit : Compiled) :
    Recorded RenderState Stop Unit := do
  Recorded.exec config fuel unit.functions unit.body 0 0
  Recorded.silent Render.flush

end Stencil
