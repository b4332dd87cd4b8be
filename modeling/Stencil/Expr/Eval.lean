import Stencil.Expr.Basic
import Stencil.Render.Memory

/-!
# Evaluating expressions

An expression is evaluated in a frame. Operands are evaluated from left to right; `&&`, `||`, the
ternary operator and `??` evaluate only what they need.

* Reading a field, an index or a method of **null** fails, except inside the left operand of
  `??`, where the result is null. This holds for everything that is evaluated in there.
* An assignment goes where the policy in force says, and its value is the assigned one.
* An index assignment changes the list or map that the variable refers to. It waits for itself if
  the key is the map or holds it.

Evaluation is by structural recursion, so it always ends.

Main definitions: `Expr.eval`, `Expr.evalAll`.
-/

namespace Stencil

open Eval

/-! ### Indexes and fields -/

/-- A list index. -/
def listIndex (h : Heap) (key : Value) : Except Fault Nat :=
  match key.asIndex? with
  | some i => .ok i
  | none => .error (.notAnIndex (h.text key))

/-- Reads `target[key]`. -/
def Heap.readIndex (h : Heap) (nullSafe : Bool) (target key : Value) : Except Fault Value :=
  match target with
  | .null => if nullSafe then .ok .null else .error (.indexOfNull (h.text key))
  | .list id => do
    let i ← listIndex h key
    match (h.list id)[i]? with
    | some v => .ok v
    | none => .error (.indexOutOfBounds i (h.list id).size)
  | .map id => .ok (((h.map id).get? (h.text key)).getD .null)
  | .range r => do
    let i ← listIndex h key
    match r.get? i with
    | some element => .ok (.int element)
    | none => .error (.indexOutOfBounds i r.size)
  | .str s => do
    let i ← listIndex h key
    match s.toList[i]? with
    | some c => .ok (.str (String.singleton c))
    | none => .error (.characterOutOfBounds i s.length)
  | .object id => .ok (((h.object id).fields.lookup (h.text key)).getD .null)
  | _ => .error (.notIndexable target.typeName)

/-- The field of a value that is not null; maps answer every name. -/
def Heap.field? (h : Heap) (target : Value) (name : String) : Option Value :=
  match target with
  | .map id => some (((h.map id).get? name).getD .null)
  | .status id => (h.status id).field? name
  | .object id => (h.object id).fields.lookup name
  | .list id => if name = "length" then some (.ofNat (h.list id).size) else none
  | .range r => if name = "length" then some (.ofNat r.size) else none
  | _ => none

/-- Reads `target.name`. -/
def Heap.readField (h : Heap) (nullSafe : Bool) (target : Value) (name : String) :
    Except Fault Value :=
  if target.isNull then if nullSafe then .ok .null else .error (.fieldOfNull name)
  else
    match h.field? target name with
    | some v => .ok v
    | none => .error (.noField target.typeName name)

/-- Writes `target[key]`, where `target` is the value of the variable `name`. -/
def Heap.writeIndex (h : Heap) (name : String) (target key value : Value) :
    Except Fault Unit × Heap :=
  match target with
  | .list id =>
    match listIndex h key with
    | .error fault => (.error fault, h)
    | .ok i =>
      if i < (h.list id).size then (.ok (), h.setList id ((h.list id).setIfInBounds i value))
      else (.error (.indexOutOfBounds i (h.list id).size), h)
  | .map id =>
    -- The map is locked before the text of the key is taken.
    if h.textReads key id then (.error .selfLocked, h)
    else (.ok (), h.setMap id ((h.map id).insert (h.text key) value))
  | .null => (.error (.assignToNull name), h)
  | _ => (.error (.assignToScalar name target.typeName), h)

/-! ### Calls and steps -/

/-- Calls a method of a value that is not null. -/
def Host.callMethod (host : Host) (target : Value) (name : String) (args : List Value)
    (location : Location) : Eval Value := do
  match ← onHeap (·.callMethod host.operations target name args) with
  | some (.ok v) => return v
  | some (.error cause) => raise (.callFailed (target.typeName ++ "." ++ name) cause) location
  | none => raise (.noMethod target.typeName name) location

/-- Steps a variable up or down by one. -/
def Host.step (host : Host) (scope : ScopeId) (step : Step) (early : Bool) (name : String)
    (location : Location) : Eval Value := do
  let current ← lookup host scope name
  if current.isNumber then
    let updated ← ofExcept location ((← heap).arith step.op current (.int 1))
    assign scope name updated
    return if early then updated else current
  else raise (.stepOperand step name current.typeName) location

namespace Expr

mutual

/-- The value of an expression in a frame. -/
def eval (host : Host) (scope : ScopeId) : Expr → Eval Value
  | const v => return v
  | var name => lookup host scope name
  | assign name value _ => do
    let v ← eval host scope value
    Eval.assign scope name v
    return v
  -- The variable is looked up before the key and the value are evaluated.
  | assignAt name key value location => do
    let target ← lookup host scope name
    let k ← eval host scope key
    let v ← eval host scope value
    ofExcept location (← onHeap (·.writeIndex name target k v))
    return v
  | ternary test yes no => do
    let t ← eval host scope test
    if (← heap).isTruthy t then eval host scope yes else eval host scope no
  | or left right => do
    let a ← eval host scope left
    -- The right side is left alone if the left one decides, and the result is a truth value.
    if (← heap).isTruthy a then return .bool true
    else
      let b ← eval host scope right
      return .bool ((← heap).isTruthy b)
  | and left right => do
    let a ← eval host scope left
    if (← heap).isTruthy a then
      let b ← eval host scope right
      return .bool ((← heap).isTruthy b)
    else return .bool false
  | not operand => do
    let v ← eval host scope operand
    return .bool (!(← heap).isTruthy v)
  | compare op left right location => do
    let a ← eval host scope left
    let b ← eval host scope right
    let holds ← ofExcept location ((← heap).compare op a b)
    return .bool holds
  | arith op left right location => do
    let a ← eval host scope left
    let b ← eval host scope right
    ofExcept location ((← heap).arith op a b)
  | quiet operand => withNullSafe (eval host scope operand)
  -- Null is passed on silently in the operand only, and not in the fallback.
  | coalesce operand fallback => do
    let v ← withNullSafe (eval host scope operand)
    if v.isNull then eval host scope fallback else return v
  | sign s operand location => do
    let v ← eval host scope operand
    ofExcept location (v.signed s)
  | step s early name location => host.step scope s early name location
  | staticField space name location =>
    match (host.namespaces.get? space).bind (·.fields.get? name) with
    | some v => return v
    | none => raise (.noStaticField space name) location
  | staticCall space name args location =>
    -- The operation is found before the arguments are evaluated.
    match (host.namespaces.get? space).bind (·.methods.get? name) with
    | some operation => do
      let vs ← evalAll host scope args
      runOperation operation vs (space ++ "::" ++ name) location
    | none => raise (.noStaticMethod space name) location
  | call name args location =>
    match host.methods.get? name with
    | some operation => do
      let vs ← evalAll host scope args
      runOperation operation vs name location
    | none => raise (.noSharedMethod name) location
  | index target key location => do
    let t ← eval host scope target
    let k ← eval host scope key
    let m ← get
    ofExcept location (m.heap.readIndex m.control.nullSafe t k)
  | field target name location => do
    let t ← eval host scope target
    let m ← get
    ofExcept location (m.heap.readField m.control.nullSafe t name)
  | method target name args location => do
    let t ← eval host scope target
    if t.isNull then
      -- The arguments of a method of null are not evaluated.
      if (← get).control.nullSafe then return .null
      else raise (.methodOfNull name) location
    else
      let vs ← evalAll host scope args
      host.callMethod t name vs location
  | map keys values => do
    let vs ← evalAll host scope values
    -- Of equal keys the last one has the value, in the place of the first.
    onHeap (·.newMap (.ofList (keys.zip vs)))
  | list items => do
    let vs ← evalAll host scope items
    onHeap (·.newList vs.toArray)
  | range first last location => do
    let a ← eval host scope first
    let b ← eval host scope last
    ofExcept location (a.rangeTo b)

/-- The values of expressions, from left to right. -/
def evalAll (host : Host) (scope : ScopeId) : List Expr → Eval (List Value)
  | [] => return []
  | e :: rest => do
    let v ← eval host scope e
    let vs ← evalAll host scope rest
    return v :: vs

end

end Expr

end Stencil
