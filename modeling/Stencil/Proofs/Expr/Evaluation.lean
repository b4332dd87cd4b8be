import Stencil.Proofs.Render.Record

/-!
# What evaluations are composed of

An expression is evaluated by evaluating its parts, in an order that its form gives, with a few
steps in between: reads and assignments, reads and changes of lists and maps, calls, and results of
computations that may fail at a location. So what these steps have in common, and what is kept when
they are put together, is common to the evaluations of all expressions. An `EvalLogic` has one rule
for each kind of step, and this module has the one induction over expressions (`EvalLogic.eval`);
what is shown of evaluations elsewhere is shown by giving the rules.

A rule may ask for the constants, the names and the locations that stand in the expression
(`Vocabulary`). What is known of a value when it is computed may be of use later, when it has become
part of another one. So the rules keep an invariant of all values that come up. It may depend on a
number that never goes down in the course of an evaluation, such as the number of the maps that have
been made.

Main definitions: `Vocabulary`, `Expr.Within`, `EvalLogic`.
Main statements: `EvalLogic.eval`, `EvalLogic.evalAll`.
-/

namespace Stencil

/-! ### What stands in an expression -/

namespace Expr

mutual

/-- The names of the variables that an expression reads. -/
def reads : Expr → List String
  | const _ | staticField .. => []
  | var name | step _ _ name _ => [name]
  | assign _ value _ => value.reads
  | assignAt name key value _ => name :: (key.reads ++ value.reads)
  | ternary test yes no => test.reads ++ (yes.reads ++ no.reads)
  | or left right | and left right | compare _ left right _ | arith _ left right _ =>
    left.reads ++ right.reads
  | not operand | quiet operand | sign _ operand _ => operand.reads
  | coalesce operand fallback => operand.reads ++ fallback.reads
  | staticCall _ _ args _ | call _ args _ => readsAll args
  | index target key _ => target.reads ++ key.reads
  | field target _ _ => target.reads
  | method target _ args _ => target.reads ++ readsAll args
  | map _ values => readsAll values
  | list items => readsAll items
  | range first last _ => first.reads ++ last.reads

/-- The names of the variables that expressions read. -/
def readsAll : List Expr → List String
  | [] => []
  | e :: rest => e.reads ++ readsAll rest

end

mutual

/-- The constants in an expression. -/
def consts : Expr → List Value
  | const v => [v]
  | var _ | step .. | staticField .. => []
  | assign _ e _ | not e | quiet e | sign _ e _ | field e _ _ => e.consts
  | assignAt _ key e _ => key.consts ++ e.consts
  | ternary test yes no => test.consts ++ yes.consts ++ no.consts
  | or left right | and left right | compare _ left right _ | arith _ left right _
  | coalesce left right | index left right _ | range left right _ => left.consts ++ right.consts
  | staticCall _ _ args _ | call _ args _ => allConsts args
  | method target _ args _ => target.consts ++ allConsts args
  | map _ items | list items => allConsts items

/-- The constants in expressions. -/
def allConsts : List Expr → List Value
  | [] => []
  | e :: es => e.consts ++ allConsts es

end

mutual

/-- The locations that an expression carries, those of its parts included. -/
def locations : Expr → List Location
  | const _ | var _ => []
  | assign _ value location => location :: value.locations
  | assignAt _ key value location => location :: (key.locations ++ value.locations)
  | ternary test yes no => test.locations ++ yes.locations ++ no.locations
  | or left right | and left right => left.locations ++ right.locations
  | not operand | quiet operand => operand.locations
  | compare _ left right location | arith _ left right location =>
    location :: (left.locations ++ right.locations)
  | coalesce operand fallback => operand.locations ++ fallback.locations
  | sign _ operand location => location :: operand.locations
  | step _ _ _ location | staticField _ _ location => [location]
  | staticCall _ _ args location | call _ args location => location :: allLocations args
  | index target key location => location :: (target.locations ++ key.locations)
  | field target _ location => location :: target.locations
  | method target _ args location => location :: (target.locations ++ allLocations args)
  | map _ values => allLocations values
  | list items => allLocations items
  | range first last location => location :: (first.locations ++ last.locations)

/-- The locations that expressions carry. -/
def allLocations : List Expr → List Location
  | [] => []
  | e :: es => e.locations ++ allLocations es

end

/-- The expressions that an expression is put together from. -/
def parts : Expr → List Expr
  | const _ | var _ | step .. | staticField .. => []
  | assign _ e _ | not e | quiet e | sign _ e _ | field e _ _ => [e]
  | assignAt _ key e _ => [key, e]
  | ternary test yes no => [test, yes, no]
  | or left right | and left right | compare _ left right _ | arith _ left right _
  | coalesce left right | index left right _ | range left right _ => [left, right]
  | staticCall _ _ args _ | call _ args _ => args
  | method target _ args _ => target :: args
  | map _ items | list items => items

variable {e part : Expr} {es : List Expr}

/-- A name is read by a list of expressions if one of them reads it. -/
theorem mem_readsAll {name : String} : name ∈ readsAll es ↔ ∃ e ∈ es, name ∈ e.reads := by
  induction es with
  | nil => simp [readsAll]
  | cons e es ih => simp [readsAll, ih]

/-- Likewise for a constant. -/
theorem mem_allConsts {v : Value} : v ∈ allConsts es ↔ ∃ e ∈ es, v ∈ e.consts := by
  induction es with
  | nil => simp [allConsts]
  | cons e es ih => simp [allConsts, ih]

/-- Likewise for a location. -/
theorem mem_allLocations {l : Location} : l ∈ allLocations es ↔ ∃ e ∈ es, l ∈ e.locations := by
  induction es with
  | nil => simp [allLocations]
  | cons e es ih => simp [allLocations, ih]

theorem reads_subset (h : part ∈ e.parts) : part.reads ⊆ e.reads := by
  intro name hname
  cases e <;> grind [parts, reads, mem_readsAll]

/-- The constants of a part are constants of the whole. -/
theorem consts_subset (h : part ∈ e.parts) : part.consts ⊆ e.consts := by
  intro v hv
  cases e <;> grind [parts, consts, mem_allConsts]

/-- The locations of a part are locations of the whole. -/
theorem locations_subset (h : part ∈ e.parts) : part.locations ⊆ e.locations := by
  intro l hl
  cases e <;> grind [parts, locations, mem_allLocations]

end Expr

/-- What may stand in an expression. -/
structure Vocabulary where
  consts : Value → Prop := fun _ => True
  names : String → Prop := fun _ => True
  places : Location → Prop := fun _ => True

/-- An expression has constants of a vocabulary only, reads names of it only, and has locations of
it only. -/
structure Expr.Within (voc : Vocabulary) (e : Expr) : Prop where
  consts : ∀ v ∈ e.consts, voc.consts v
  reads : ∀ name ∈ e.reads, voc.names name
  locations : ∀ l ∈ e.locations, voc.places l

/-- The parts of an expression of a vocabulary are expressions of it. -/
theorem Expr.Within.part {voc : Vocabulary} {e part : Expr} (h : e.Within voc)
    (hpart : part ∈ e.parts) : part.Within voc where
  consts v hv := h.consts v (consts_subset hpart hv)
  reads name hname := h.reads name (reads_subset hpart hname)
  locations l hl := h.locations l (locations_subset hpart hl)

/-! ### Rules -/

/-- A value that an evaluation makes up: null, a truth value, or the result of a computation. -/
inductive Value.Computed : Value → Prop
  | null : Computed .null
  | bool (b : Bool) : Computed (.bool b)
  | arith {h : Heap} {op : ArithOp} {a b v : Value} : h.arith op a b = .ok v → Computed v
  | signed {s : Sign} {a v : Value} : a.signed s = .ok v → Computed v
  | range {a b v : Value} : a.rangeTo b = .ok v → Computed v

/-- An operation that expressions call by its name: a method of the host or of a namespace. -/
inductive Host.Calls (host : Host) (operation : Operation) : Prop
  | method {name : String} : host.methods.get? name = some operation → Calls host operation
  | member {space name : String} :
      (host.namespaces.get? space).bind (·.methods.get? name) = some operation →
      Calls host operation

/-- A relation of the evaluations in two frames, and of the twins of those in the first one, that
composes. It may depend on a number `n` from which on it is stated. A result carries some values,
and those that come up have an invariant `V`. -/
structure EvalLogic (host : Host) (i i' : ScopeId) (voc : Vocabulary) (V : Nat → Value → Prop)
    (R : {α : Type} → Nat → (α → List Value) → Recorded Memory Error α → Eval α → Prop) :
    Prop where
  mono : ∀ {n n' v}, V n v → n ≤ n' → V n' v
  const : ∀ {n v}, voc.consts v → V n v
  computed : ∀ {n v}, v.Computed → V n v
  pure : ∀ {α : Type} {n : Nat} {carried : α → List Value} (a : α), (∀ v ∈ carried a, V n v) →
    R n carried (Pure.pure a) (Pure.pure a)
  bind : ∀ {α β : Type} {n : Nat} {carried : α → List Value} {carried' : β → List Value}
    {x : Recorded Memory Error α} {y : Eval α} {f : α → Recorded Memory Error β}
    {g : α → Eval β}, R n carried x y →
    (∀ a k, n ≤ k → (∀ v ∈ carried a, V k v) → R k carried' (f a) (g a)) →
    R n carried' (x >>= f) (y >>= g)
  raise : ∀ {α : Type} {n : Nat} {carried : α → List Value} {location : Location} (fault : Fault),
    voc.places location →
    R n carried (.silent (Eval.raise fault location)) (Eval.raise fault location)
  heap : ∀ {n}, R n (fun _ => []) (.silent Eval.heap) Eval.heap
  lookup : ∀ {n : Nat} {name : String}, voc.names name →
    R n ([·]) (.lookup host i name) (Eval.lookup host i' name)
  assign : ∀ {n v} (name : String), V n v → R n (fun _ => []) (.assign i name v) (Eval.assign i' name v)
  withNullSafe : ∀ {α : Type} {n : Nat} {carried : α → List Value} {x : Recorded Memory Error α}
    {y : Eval α}, R n carried x y → R n carried x.withNullSafe (Eval.withNullSafe y)
  noting : ∀ {n e x}, R n ([·]) x (e.eval host i') →
    R n ([·]) (.noting (.evaluated i e) x) (e.eval host i')
  readIndex : ∀ {n location} (target key), voc.places location →
    R n ([·])
      (do
        let m ← .silent get
        .silent (Eval.ofExcept location (m.heap.readIndex m.control.nullSafe target key)))
      (do
        let m ← get
        Eval.ofExcept location (m.heap.readIndex m.control.nullSafe target key))
  readField : ∀ {n location} (target name), voc.places location →
    R n ([·])
      (do
        let m ← .silent get
        .silent (Eval.ofExcept location (m.heap.readField m.control.nullSafe target name)))
      (do
        let m ← get
        Eval.ofExcept location (m.heap.readField m.control.nullSafe target name))
  methodOfNull : ∀ {n location} (name), voc.places location →
    R n ([·])
      (do
        if (← .silent get).control.nullSafe then return .null
        else .silent (Eval.raise (.methodOfNull name) location))
      (do
        if (← get).control.nullSafe then return .null
        else Eval.raise (.methodOfNull name) location)
  writeIndex : ∀ {n target v} (name : String) (key : Value), V n target → V n v →
    R n (fun _ => []) (.silent (Eval.onHeap (·.writeIndex name target key v)))
      (Eval.onHeap (·.writeIndex name target key v))
  newMap : ∀ {n} {vs : List Value} (keys : List String), (∀ v ∈ vs, V n v) →
    R n ([·]) (.silent (Eval.onHeap (·.newMap (.ofList (keys.zip vs)))))
      (Eval.onHeap (·.newMap (.ofList (keys.zip vs))))
  newList : ∀ {n} {vs : List Value}, (∀ v ∈ vs, V n v) →
    R n ([·]) (.silent (Eval.onHeap (·.newList vs.toArray))) (Eval.onHeap (·.newList vs.toArray))
  /-- A field of a namespace is read. -/
  member : ∀ {n space name v}, (host.namespaces.get? space).bind (·.fields.get? name) = some v →
    R n ([·]) (Pure.pure v) (Pure.pure v)
  operation : ∀ {n operation args location} (callee), host.Calls operation →
    voc.places location → (∀ v ∈ args, V n v) →
    R n ([·]) (.silent (Eval.runOperation operation args callee location))
      (Eval.runOperation operation args callee location)
  callMethod : ∀ {n target args location} (name), voc.places location → V n target →
    (∀ v ∈ args, V n v) →
    R n ([·]) (.silent (host.callMethod target name args location))
      (host.callMethod target name args location)

namespace EvalLogic

variable {host : Host} {i i' : ScopeId} {voc : Vocabulary} {V : Nat → Value → Prop}
  {R : {α : Type} → Nat → (α → List Value) → Recorded Memory Error α → Eval α → Prop}
  {α β : Type} {n : Nat} {carried : α → List Value} {carried' : β → List Value}
  {location : Location}

/-! ### Derived rules -/

section

variable (L : EvalLogic host i i' voc V R)

include L

theorem value {v : Value} (h : V n v) : R n ([·]) (Pure.pure v) (Pure.pure v) :=
  L.pure v (List.forall_mem_singleton.mpr h)

/-- What goes on with a value. -/
theorem bindValue {x : Recorded Memory Error Value} {y : Eval Value}
    {f : Value → Recorded Memory Error β} {g : Value → Eval β} (hx : R n ([·]) x y)
    (hf : ∀ v k, n ≤ k → V k v → R k carried' (f v) (g v)) : R n carried' (x >>= f) (y >>= g) :=
  L.bind hx fun v k hk hv => hf v k hk (List.forall_mem_singleton.mp hv)

/-- What goes on with a result that carries no value. -/
theorem next {x : Recorded Memory Error α} {y : Eval α} {f : α → Recorded Memory Error β}
    {g : α → Eval β} (hx : R n (fun _ => []) x y)
    (hf : ∀ a k, n ≤ k → R k carried' (f a) (g a)) : R n carried' (x >>= f) (y >>= g) :=
  L.bind hx fun a k hk _ => hf a k hk

/-- A result that may be a fault is raised at its location, or the value it is. -/
theorem ofExcept {result : Except Fault α} (hlocation : voc.places location)
    (h : ∀ a, result = .ok a → ∀ v ∈ carried a, V n v) :
    R n carried (.silent (Eval.ofExcept location result)) (Eval.ofExcept location result) := by
  cases result with
  | ok a => exact L.pure a (h a rfl)
  | error fault => exact L.raise fault hlocation

/-- A computation of a value, which may fail. -/
theorem ofComputed {result : Except Fault Value} (hlocation : voc.places location)
    (h : ∀ v, result = .ok v → v.Computed) :
    R n ([·]) (.silent (Eval.ofExcept location result)) (Eval.ofExcept location result) :=
  L.ofExcept hlocation fun v hok => List.forall_mem_singleton.mpr (L.computed (h v hok))

/-- A step reads a variable, and writes what it makes of the value. -/
theorem step (s : Step) (early : Bool) {name : String} (hname : voc.names name)
    (hlocation : voc.places location) :
    R n ([·]) (.step host i s early name location) (host.step i' s early name location) := by
  refine L.bindValue (L.lookup hname) fun current k _ hcurrent => ?_
  split
  · refine L.next L.heap fun h k' hk' =>
      L.bindValue (L.ofComputed hlocation fun _ hok => .arith hok) fun updated k'' hk'' hupdated =>
        L.next (L.assign name hupdated) fun _ last hlast => ?_
    split
    · exact L.value (L.mono hupdated hlast)
    · exact L.value (L.mono hcurrent (by omega))
  · exact L.raise _ hlocation

end

/-! ### Every expression -/

mutual

/-- **The rules are those of every evaluation**, if the expression is one of the vocabulary. -/
theorem eval (L : EvalLogic host i i' voc V R) :
    (e : Expr) → e.Within voc → ∀ n, R n ([·]) (.eval host i e) (e.eval host i')
  | .const v, he, _ => L.noting (L.value (L.const (he.consts v List.mem_cons_self)))
  -- by induction on the form; every form first notes itself, and then does what its rule allows
  | .var name, he, _ => L.noting (L.lookup (he.reads name List.mem_cons_self))
  | .assign name value _, he, n =>
    L.noting <| L.bindValue (L.eval value (he.part (by simp [Expr.parts])) n) fun _ _ _ hv =>
      L.next (L.assign name hv) fun _ _ hk => L.value (L.mono hv hk)
  | .assignAt name key value location, he, n =>
    L.noting <| L.bindValue (L.lookup (he.reads name List.mem_cons_self)) fun _ k _ htarget =>
      L.bindValue (L.eval key (he.part (by simp [Expr.parts])) k) fun key k' hk' _ =>
        L.bindValue (L.eval value (he.part (by simp [Expr.parts])) k') fun _ _ hk'' hv =>
          L.next (L.writeIndex name key (L.mono htarget (Nat.le_trans hk' hk'')) hv)
            fun _ _ hwritten => L.next (L.ofExcept (he.locations location List.mem_cons_self)
              fun _ _ => List.forall_mem_nil _) fun _ _ hlast =>
                L.value (L.mono hv (Nat.le_trans hwritten hlast))
  | .ternary test yes no, he, n => by
    refine L.noting <| L.bindValue (L.eval test (he.part (by simp [Expr.parts])) n) fun _ _ _ _ =>
      L.next L.heap fun _ k _ => ?_
    -- which branch is evaluated depends on the test, and both are parts
    split
    · exact L.eval yes (he.part (by simp [Expr.parts])) k
    · exact L.eval no (he.part (by simp [Expr.parts])) k
  | .or left right, he, n => by
    refine L.noting <| L.bindValue (L.eval left (he.part (by simp [Expr.parts])) n) fun _ _ _ _ =>
      L.next L.heap fun _ k _ => ?_
    -- a true left side is the value, and the right side is not evaluated
    split
    · exact L.value (L.computed (.bool _))
    · exact L.bindValue (L.eval right (he.part (by simp [Expr.parts])) k) fun _ _ _ _ =>
        L.next L.heap fun _ _ _ => L.value (L.computed (.bool _))
  | .and left right, he, n => by
    refine L.noting <| L.bindValue (L.eval left (he.part (by simp [Expr.parts])) n) fun _ _ _ _ =>
      L.next L.heap fun _ k _ => ?_
    -- likewise with a false left side
    split
    · exact L.bindValue (L.eval right (he.part (by simp [Expr.parts])) k) fun _ _ _ _ =>
        L.next L.heap fun _ _ _ => L.value (L.computed (.bool _))
    · exact L.value (L.computed (.bool _))
  | .not operand, he, n =>
    L.noting <| L.bindValue (L.eval operand (he.part (by simp [Expr.parts])) n) fun _ _ _ _ =>
      L.next L.heap fun _ _ _ => L.value (L.computed (.bool _))
  | .compare _ left right location, he, n =>
    L.noting <| L.bindValue (L.eval left (he.part (by simp [Expr.parts])) n) fun _ k _ _ =>
      L.bindValue (L.eval right (he.part (by simp [Expr.parts])) k) fun _ _ _ _ =>
        L.next L.heap fun _ _ _ =>
          L.next (L.ofExcept (he.locations location List.mem_cons_self)
            fun _ _ => List.forall_mem_nil _) fun _ _ _ => L.value (L.computed (.bool _))
  | .arith _ left right location, he, n =>
    L.noting <| L.bindValue (L.eval left (he.part (by simp [Expr.parts])) n) fun _ k _ _ =>
      L.bindValue (L.eval right (he.part (by simp [Expr.parts])) k) fun _ _ _ _ =>
        L.next L.heap fun _ _ _ =>
          L.ofComputed (he.locations location List.mem_cons_self) fun _ hok => .arith hok
  | .quiet operand, he, n =>
    L.noting (L.withNullSafe (L.eval operand (he.part (by simp [Expr.parts])) n))
  | .coalesce operand fallback, he, n => by
    refine L.noting <| L.bindValue
      (L.withNullSafe (L.eval operand (he.part (by simp [Expr.parts])) n)) fun v k _ hv => ?_
    -- only a null makes way for the fallback
    split
    · exact L.eval fallback (he.part (by simp [Expr.parts])) k
    · exact L.value hv
  | .sign _ operand location, he, n =>
    L.noting <| L.bindValue (L.eval operand (he.part (by simp [Expr.parts])) n) fun _ _ _ _ =>
      L.ofComputed (he.locations location List.mem_cons_self) fun _ hok => .signed hok
  | .step s early name location, he, _ =>
    L.noting (L.step s early (he.reads name List.mem_cons_self)
      (he.locations location List.mem_cons_self))
  | .staticField space name location, he, _ => by
    refine L.noting ?_
    unfold Expr.eval
    -- what the host has under a name is its member, and without one the read fails
    cases hfound : (host.namespaces.get? space).bind (·.fields.get? name) with
    | some v => exact L.member hfound
    | none => exact L.raise _ (he.locations location List.mem_cons_self)
  | .staticCall space name args location, he, n => by
    refine L.noting ?_
    unfold Expr.eval
    cases hfound : (host.namespaces.get? space).bind (·.methods.get? name) with
    | some operation =>
      exact L.bind (L.evalAll args (fun _ harg => he.part harg) n) fun _ _ _ hvs =>
        L.operation _ (.member hfound) (he.locations location List.mem_cons_self) hvs
    | none => exact L.raise _ (he.locations location List.mem_cons_self)
  | .call name args location, he, n => by
    refine L.noting ?_
    unfold Expr.eval
    cases hfound : host.methods.get? name with
    | some operation =>
      exact L.bind (L.evalAll args (fun _ harg => he.part harg) n) fun _ _ _ hvs =>
        L.operation name (.method hfound) (he.locations location List.mem_cons_self) hvs
    | none => exact L.raise _ (he.locations location List.mem_cons_self)
  | .index target key location, he, n =>
    L.noting <| L.bindValue (L.eval target (he.part (by simp [Expr.parts])) n) fun t k _ _ =>
      L.bindValue (L.eval key (he.part (by simp [Expr.parts])) k) fun key _ _ _ =>
        L.readIndex t key (he.locations location List.mem_cons_self)
  | .field target name location, he, n =>
    L.noting <| L.bindValue (L.eval target (he.part (by simp [Expr.parts])) n) fun t _ _ _ =>
      L.readField t name (he.locations location List.mem_cons_self)
  | .method target name args location, he, n => by
    have hlocation : voc.places location := he.locations location List.mem_cons_self
    refine L.noting <| L.bindValue (L.eval target (he.part (by simp [Expr.parts])) n)
      fun t k _ ht => ?_
    -- a method of null is decided before the arguments, which are not evaluated then
    split
    · exact L.methodOfNull name hlocation
    · exact L.bind (L.evalAll args (fun _ harg => he.part (List.mem_cons_of_mem _ harg)) k)
        fun _ _ hk hvs => L.callMethod name hlocation (L.mono ht hk) hvs
  | .map keys values, he, n =>
    L.noting <| L.bind (L.evalAll values (fun _ hvalue => he.part hvalue) n) fun _ _ _ hvs =>
      L.newMap keys hvs
  | .list items, he, n =>
    L.noting <| L.bind (L.evalAll items (fun _ hitem => he.part hitem) n) fun _ _ _ hvs =>
      L.newList hvs
  | .range first last location, he, n =>
    L.noting <| L.bindValue (L.eval first (he.part (by simp [Expr.parts])) n) fun _ k _ _ =>
      L.bindValue (L.eval last (he.part (by simp [Expr.parts])) k) fun _ _ _ _ =>
        L.ofComputed (he.locations location List.mem_cons_self) fun _ hok => .range hok

/-- They are those of the evaluations of expressions in a row. -/
theorem evalAll (L : EvalLogic host i i' voc V R) :
    (es : List Expr) → (∀ e ∈ es, e.Within voc) → ∀ n, R n id (.evalAll host i es)
      (Expr.evalAll host i' es)
  | [], _, _ => L.pure [] (List.forall_mem_nil _)
  | e :: rest, hes, n => by
    obtain ⟨he, hrest⟩ := List.forall_mem_cons.mp hes
    exact L.bindValue (L.eval e he n) fun _ k _ hv =>
      L.bind (L.evalAll rest hrest k) fun _ _ hk hvs =>
        L.pure _ (List.forall_mem_cons.mpr ⟨L.mono hv hk, hvs⟩)

end

end EvalLogic

end Stencil
