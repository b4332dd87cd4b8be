import Mathlib
import Stencil.Proofs.Render.Frames
import Stencil.Proofs.Value.Separation

/-!
# Evaluations and maps that are set aside

The values that an evaluation comes across are those of the variables, those that the heap stores,
those that the host offers, the constants of the expression, and what the evaluation makes itself.
If none of them is a map that is set aside, then the evaluation leaves these maps as they are, and
its value is none of them.

What is said of the result of an action depends on the number of maps by then, and what has been
evaluated so far is kept for later; so every rule is stated from some number of maps on
(`Eval.Passes`).

Main definitions: `Expr.consts`, `Memory.Clear`, `Memory.Onward`, `Host.Honest`, `Eval.Passes`.
Main statement: `Expr.eval_passes`.
-/

namespace Stencil

open Eval

variable {α β : Type} {aside : MapId → Prop} {host : Host} {scope : ScopeId} {size size' : Nat}
  {v : Value}

/-! ### Constants -/

namespace Expr

/-- No constant in an expression is a map. -/
def Literal (e : Expr) : Prop := ∀ v ∈ e.consts, v.NoMap

/-- No constant in literal expressions is a map. -/
theorem noMap_of_literal {es : List Expr} (h : ∀ e ∈ es, e.Literal) :
    ∀ v ∈ allConsts es, v.NoMap := by
  intro v hv
  obtain ⟨e, he, hv⟩ := mem_allConsts.mp hv
  exact h e he v hv

end Expr

/-- The values of a map literal are those of its entries. -/
theorem mem_ofList_zip {keys : List String} {values : List Value} {e : String × Value}
    (h : e ∈ (Assoc.ofList (keys.zip values)).entries) : e.2 ∈ values := by
  rcases Assoc.mem_entries_insertAll h with hempty | hzip
  · exact absurd hempty List.not_mem_nil
  · exact (List.of_mem_zip hzip).2

/-! ### Memories -/

/-- A value that a host offers, as an object or in a namespace. -/
inductive Host.Offers (host : Host) : Value → Prop
  | object {name : String} {v : Value} : host.objects.get? name = some v → Offers host v
  | member {space name : String} {namespace_ : StaticNamespace} {v : Value} :
      host.namespaces.get? space = some namespace_ → namespace_.fields.get? name = some v →
      Offers host v

/-- A host whose operations are honest. -/
structure Host.Honest (host : Host) : Prop where
  methods : ∀ name operation, host.methods.get? name = some operation → operation.Honest
  operations : ∀ name operation, host.operations.get? name = some operation → operation.Honest
  members : ∀ space members name operation, host.namespaces.get? space = some members →
    members.methods.get? name = some operation → operation.Honest

/-- No variable, nothing in the heap and nothing that the host offers is a map that is set aside,
or one that is not there. -/
structure Memory.Clear (host : Host) (aside : MapId → Prop) (m : Memory) : Prop where
  heap : m.heap.Clear aside
  bound : ∀ {scope name v}, m.scopes.slot? scope name = some v → v.Clear aside m.heap.maps.size
  offered : ∀ {v}, host.Offers v → v.Clear aside m.heap.maps.size

/-- What becomes of a memory with maps set aside: they are still aside, and as they were. -/
structure Memory.Onward (host : Host) (aside : MapId → Prop) (m m' : Memory) : Prop where
  clear : m'.Clear host aside
  heap : m.heap.Onward aside m'.heap

namespace Memory

variable {m m' m'' : Memory}

theorem Onward.trans (ho : m.Onward host aside m') (ho' : m'.Onward host aside m'') :
    m.Onward host aside m'' := ⟨ho'.clear, ho.heap.trans ho'.heap⟩

namespace Clear

variable (hm : m.Clear host aside)

include hm

theorem refl : m.Onward host aside m := ⟨hm, hm.heap.refl⟩

/-- Fewer maps may be set aside. -/
theorem fewer {aside' : MapId → Prop} (hfewer : ∀ id, aside' id → aside id) :
    m.Clear host aside' :=
  ⟨hm.heap.fewer hfewer, fun hv => (hm.bound hv).fewer hfewer,
    fun hv => (hm.offered hv).fewer hfewer⟩

/-- The control state does not matter. -/
theorem withControl (control : Control) : { m with control }.Clear host aside :=
  ⟨hm.heap, hm.bound, hm.offered⟩

/-- A heap may go onward by itself. -/
theorem onHeap {h : Heap} (ho : m.heap.Onward aside h) :
    m.Onward host aside { m with heap := h } where
  clear := ⟨ho.clear, fun hv => (hm.bound hv).mono ho.size, fun hv => (hm.offered hv).mono ho.size⟩
  heap := ho

/-- A variable that is read is no map that is set aside. -/
theorem get (scope : ScopeId) (name : String) :
    (m.scopes.get host.objects scope name).Clear aside m.heap.maps.size := by
  unfold Scopes.get
  cases hbinding : m.scopes.binding? scope name with
  -- a variable that is bound has a value of the memory
  | some v =>
    rw [Scopes.binding?_of_holder] at hbinding
    obtain ⟨holder, -, hslot⟩ := Option.bind_eq_some_iff.mp hbinding
    exact hm.bound hslot
  -- any other name is an object of the host, or it is null
  | none =>
    cases hobject : host.objects.get? name with
    | some v => exact hm.offered (.object hobject)
    | none => exact Value.noMap_null.clear

/-- A variable may be bound to a value that is none. -/
theorem bind (hv : v.Clear aside m.heap.maps.size) (scope : ScopeId) (name : String) :
    m.Onward host aside { m with scopes := m.scopes.bind scope name v } where
  clear :=
    { heap := hm.heap
      bound := fun {i key w} hw => by
        -- the value that is bound is clear, and the others were there before
        change (m.scopes.bind scope name v).slot? i key = some w at hw
        rw [Scopes.slot?_bind_of_link] at hw
        split at hw
        · obtain ⟨_, -, rfl⟩ := Option.map_eq_some_iff.mp hw
          exact hv
        · exact hm.bound hw
      offered := hm.offered }
  heap := hm.heap.refl

end Clear

end Memory

/-! ### Actions -/

/-- From a memory with maps set aside, of which there are at least `size`, an action leaves them
aside and as they were. If it goes well, its result is as given for the number of maps by then. -/
def Eval.Passes (host : Host) (aside : MapId → Prop) (size : Nat) (act : Eval α)
    (K : α → Nat → Prop) : Prop :=
  ∀ m : Memory, m.Clear host aside → size ≤ m.heap.maps.size →
    m.Onward host aside (act.runOn m).2 ∧
      ∀ a, (act.runOn m).1 = .ok a → K a (act.runOn m).2.heap.maps.size

/-- An action whose value is no map that is set aside. -/
abbrev Eval.Clears (host : Host) (aside : MapId → Prop) (size : Nat) (act : Eval Value) : Prop :=
  act.Passes host aside size fun v n => v.Clear aside n

namespace Eval.Passes

variable {K : α → Nat → Prop} {M : β → Nat → Prop}

/-- What is known of a result may be put in another way. -/
theorem mono {K' : α → Nat → Prop} {act : Eval α} (h : act.Passes host aside size K)
    (hk : ∀ a n, K a n → K' a n) : act.Passes host aside size K' := fun m hm hsize =>
  have ⟨honward, hresult⟩ := h m hm hsize
  ⟨honward, fun a hok => hk a _ (hresult a hok)⟩

/-- The value that an action ends with is all that it carries. -/
theorem single {act : Eval Value} (h : act.Clears host aside size) :
    act.Passes host aside size fun a n => ∀ v ∈ [a], v.Clear aside n :=
  h.mono fun _ _ hv => List.forall_mem_singleton.mpr hv

theorem none {act : Eval α} (h : act.Passes host aside size K) :
    act.Passes host aside size fun _ n => ∀ v ∈ ([] : List Value), v.Clear aside n :=
  h.mono fun _ _ _ => List.forall_mem_nil _

/-- A value passes if it goes with every later heap. -/
theorem pure (a : α) (ha : ∀ n, size ≤ n → K a n) : (pure a : Eval α).Passes host aside size K :=
  fun _ hm hsize => ⟨hm.refl, fun _ hok => Except.ok.inj hok ▸ ha _ hsize⟩

theorem value (hv : v.Clear aside size) : (Pure.pure v : Eval Value).Clears host aside size :=
  pure v fun _ hle => hv.mono hle

theorem throw (error : Error) : (throw error : Eval α).Passes host aside size K :=
  fun _ hm _ => ⟨hm.refl, fun _ hok => by cases hok⟩

/-- One computation behind another: the second with the value and on the heap of the first. -/
theorem bind {x : Eval α} {f : α → Eval β} (hx : x.Passes host aside size K)
    (hf : ∀ a n, size ≤ n → K a n → (f a).Passes host aside n M) :
    (x >>= f).Passes host aside size M := by
  intro m hm hsize
  obtain ⟨hmid, hk⟩ := hx m hm hsize
  rw [runOn_bind]
  rcases hrun : x.runOn m with ⟨_ | a, mid⟩
  -- what has failed has left the maps aside
  · rw [hrun] at hmid
    exact ⟨hmid, fun _ hok => by cases hok⟩
  -- what has gone well is the start of the second computation
  · rw [hrun] at hmid hk
    obtain ⟨hafter, hM⟩ :=
      hf a _ (Nat.le_trans hsize hmid.heap.size) (hk a rfl) mid hmid.clear (Nat.le_refl _)
    exact ⟨hmid.trans hafter, hM⟩

/-- A result that may be a fault passes if the value it may be does. -/
theorem ofExcept {location : Location} {result : Except Fault α}
    (h : ∀ a, result = .ok a → ∀ n, size ≤ n → K a n) :
    (Eval.ofExcept location result).Passes host aside size K := by
  cases result with
  | ok a => exact pure a (h a rfl)
  | error fault => exact throw _

theorem raise (fault : Fault) (location : Location) :
    (Eval.raise fault location : Eval α).Passes host aside size K := throw _

/-- An action that looks at the memory and goes on. -/
theorem memory {f : Memory → Eval β}
    (hf : ∀ m : Memory, m.Clear host aside → size ≤ m.heap.maps.size →
      (f m).Passes host aside m.heap.maps.size M) :
    (MonadState.get >>= f).Passes host aside size M :=
  fun m hm hsize => hf m hm hsize m hm (Nat.le_refl _)

/-- A change of the heap passes if the heap goes onward with it. -/
theorem onHeap {f : Heap → α × Heap}
    (hf : ∀ h : Heap, h.Clear aside → size ≤ h.maps.size →
      h.Onward aside (f h).2 ∧ K (f h).1 (f h).2.maps.size) :
    (Eval.onHeap f).Passes host aside size K := by
  intro m hm hsize
  obtain ⟨honward, hk⟩ := hf m.heap hm.heap hsize
  exact ⟨hm.onHeap honward, fun _ hok => Except.ok.inj hok ▸ hk⟩

theorem lookup (scope : ScopeId) (name : String) :
    (Eval.lookup host scope name).Clears host aside size :=
  fun _ hm _ => ⟨hm.refl, fun _ hok => Except.ok.inj hok ▸ hm.get scope name⟩

/-- An assignment of a clear value passes. -/
theorem assign (hv : v.Clear aside size) (scope : ScopeId) (name : String) :
    (Eval.assign scope name v).Passes host aside size fun _ _ => True :=
  fun _ hm hsize => ⟨hm.bind (hv.mono hsize) _ name, fun _ _ => ⟨⟩⟩

/-- So does what passes, with reads of null forgiven. -/
theorem withNullSafe {act : Eval α} (h : act.Passes host aside size K) :
    (withNullSafe act).Passes host aside size K := by
  intro m hm hsize
  obtain ⟨⟨⟨hheap, hbound, hoffered⟩, honward⟩, hk⟩ :=
    h { m with control := { m.control with nullSafe := true } } (hm.withControl _) hsize
  exact ⟨⟨⟨hheap, hbound, hoffered⟩, honward⟩, hk⟩

/-- So it does under another policy. -/
theorem withPolicy {act : Eval α} (policy : Policy) (h : act.Passes host aside size K) :
    (withPolicy policy act).Passes host aside size K := by
  intro m hm hsize
  obtain ⟨⟨⟨hheap, hbound, hoffered⟩, honward⟩, hk⟩ :=
    h { m with control := { m.control with policy } } (hm.withControl _) hsize
  exact ⟨⟨⟨hheap, hbound, hoffered⟩, honward⟩, hk⟩

/-- An honest operation of clear values gives a clear value. -/
theorem runOperation {operation : Operation} (honest : operation.Honest) {args : List Value}
    (hargs : ∀ v ∈ args, v.Clear aside size) (callee : String) (location : Location) :
    (Eval.runOperation operation args callee location).Clears host aside size := by
  have hrun : (Eval.onHeap (operation args)).Passes host aside size
      fun result n => ∀ v, Operation.Answers result v → v.Clear aside n := by
    refine onHeap fun h hh hsize => ?_
    obtain ⟨honward, hresult⟩ := honest aside args h hh fun v hv => (hargs v hv).mono hsize
    exact ⟨honward, hresult⟩
  refine bind hrun fun result n _ hresult => ?_
  cases result with
  | ok v => exact value (hresult v rfl)
  | error message => exact raise _ location

/-- So does a method of a clear target. -/
theorem callMethod (honest : host.Honest) {target : Value} (htarget : target.Clear aside size)
    {args : List Value} (hargs : ∀ v ∈ args, v.Clear aside size) (name : String)
    (location : Location) : (host.callMethod target name args location).Clears host aside size := by
  have hrun : (Eval.onHeap (·.callMethod host.operations target name args)).Passes host aside size
      fun result n => ∀ v, MethodResult.Answers result v → v.Clear aside n := by
    -- what is known of the arguments is known in any later heap
    refine onHeap fun h hh hsize => ?_
    obtain ⟨honward, hresult⟩ := hh.callMethod (fun v hv => (hargs v hv).mono hsize)
      honest.operations (htarget.mono hsize) name
    exact ⟨honward, hresult⟩
  refine bind hrun fun result n _ hresult => ?_
  -- an answer is clear, and the other outcomes are errors
  split
  · exact value (hresult _ rfl)
  · exact raise _ location
  · exact raise _ location

/-- A clear value may be written under a key of a clear target. -/
theorem writeIndex {target : Value} (htarget : target.Clear aside size) (hv : v.Clear aside size)
    (name : String) (key : Value) :
    (Eval.onHeap (·.writeIndex name target key v)).Passes host aside size fun _ _ => True :=
  onHeap fun _ hh hsize => ⟨hh.writeIndex (htarget.mono hsize) (hv.mono hsize), ⟨⟩⟩

/-- A new map of clear values is clear: it has a number that nothing had before. -/
theorem newMap {vs : List Value} (hvs : ∀ v ∈ vs, v.Clear aside size) (keys : List String) :
    (Eval.onHeap (·.newMap (.ofList (keys.zip vs)))).Clears host aside size :=
  onHeap fun _ hh hsize => hh.newMap fun _ hmem => (hvs _ (mem_ofList_zip hmem)).mono hsize

/-- So is a new list of them. -/
theorem newList {vs : List Value} (hvs : ∀ v ∈ vs, v.Clear aside size) :
    (Eval.onHeap (·.newList vs.toArray)).Clears host aside size :=
  onHeap fun _ hh hsize => ⟨hh.newList fun v hv => (hvs v (List.mem_toArray.mp hv)).mono hsize,
    Value.NoMap.clear fun _ => Value.noConfusion⟩

/-- What a namespace offers is clear. -/
theorem member {space name : String}
    (hfound : (host.namespaces.get? space).bind (·.fields.get? name) = some v) :
    (Pure.pure v : Eval Value).Clears host aside size := by
  obtain ⟨members, hmembers, hget⟩ := Option.bind_eq_some_iff.mp hfound
  exact fun m hm _ =>
    ⟨hm.refl, fun _ hok => Except.ok.inj hok ▸ hm.offered (.member hmembers hget)⟩

end Eval.Passes

/-! ### Evaluations -/

/-- No value that is computed is a map. -/
theorem Value.Computed.noMap (h : v.Computed) : v.NoMap := by
  cases h with
  | null => exact noMap_null
  | bool b => exact noMap_bool b
  | arith hok => exact Heap.arith_noMap hok
  | signed hok => exact signed_noMap hok
  | range hok => exact rangeTo_noMap hok

/-- Every operation that an honest host can be asked for is honest. -/
theorem Host.Honest.operation (honest : host.Honest) {operation : Operation}
    (h : host.Calls operation) : operation.Honest := by
  cases h with
  | method hget => exact honest.methods _ _ hget
  | member hfound =>
    obtain ⟨members, hmembers, hget⟩ := Option.bind_eq_some_iff.mp hfound
    exact honest.members _ _ _ _ hmembers hget

/-- The rules of evaluations: the values that come up are no maps that are set aside. -/
theorem Eval.Passes.logic (aside : MapId → Prop) (honest : host.Honest) (scope : ScopeId) :
    EvalLogic host scope scope { consts := Value.NoMap } (fun n v => v.Clear aside n)
      fun n carried _ y => y.Passes host aside n fun a k => ∀ v ∈ carried a, v.Clear aside k where
  -- a clear value stays clear in a larger heap
  mono hv hle := hv.mono hle
  const hv := hv.clear
  computed hv := hv.noMap.clear
  pure a ha := .pure a fun _ hle v hv => (ha v hv).mono hle
  bind hx hf := .bind hx hf
  raise fault _ := .raise fault _
  heap := fun _ hm _ => ⟨hm.refl, fun _ _ => List.forall_mem_nil _⟩
  lookup _ := .single (.lookup scope _)
  assign name hv := .none (.assign hv scope name)
  withNullSafe h := .withNullSafe h
  noting h := h
  readIndex _ _ _ :=
    .single (.memory fun _ hm _ => .ofExcept fun _ hok _ hle => (hm.heap.readIndex hok).mono hle)
  readField _ _ _ :=
    .single (.memory fun _ hm _ => .ofExcept fun _ hok _ hle => (hm.heap.readField hok).mono hle)
  -- a method of null is forgiven with a null, or raised
  methodOfNull _ _ := by
    refine .memory fun m _ _ => ?_
    split
    · exact .single (.value Value.noMap_null.clear)
    · exact .raise _ _
  -- what is written, made and handed on comes up clear, so the heap goes onward with it
  writeIndex name key htarget hv := .none (.writeIndex htarget hv name key)
  newMap keys hvs := .single (.newMap hvs keys)
  newList hvs := .single (.newList hvs)
  member hfound := .single (.member hfound)
  operation callee hcalls _ hargs := .single (.runOperation (honest.operation hcalls) hargs callee _)
  callMethod name _ htarget hargs := .single (.callMethod honest htarget hargs name _)

namespace Expr

/-- **Evaluations reach no map that is set aside.** An expression whose constants are no maps leaves
the maps that are set aside as they are, and its value is none of them. -/
theorem eval_passes (honest : host.Honest) (scope : ScopeId) (e : Expr) (size : Nat)
    (he : e.Literal) : (e.eval host scope).Clears host aside size := by
  have hrules := (Eval.Passes.logic aside honest scope).eval e ⟨he, fun _ _ => ⟨⟩, fun _ _ => ⟨⟩⟩ size
  exact hrules.mono fun v n hv => hv v List.mem_cons_self

/-- Values of a list of literal expressions are no maps that are set aside. -/
theorem evalAll_passes (honest : host.Honest) (scope : ScopeId) (es : List Expr) (size : Nat)
    (hes : ∀ v ∈ allConsts es, v.NoMap) :
    (evalAll host scope es).Passes host aside size fun vs n => ∀ v ∈ vs, v.Clear aside n :=
  (Eval.Passes.logic aside honest scope).evalAll es (fun e he => ⟨fun v hv =>
    hes v (mem_allConsts.mpr ⟨e, he, hv⟩), fun _ _ => ⟨⟩, fun _ _ => ⟨⟩⟩) size

end Expr

end Stencil
