import Mathlib
import Stencil.Proofs.Render.Inclusion
import Stencil.Proofs.Render.Separation
import Stencil.Proofs.Render.Turns

/-!
# Loops over collections

A loop over a collection runs its body once for every entry that the collection has when the loop
begins, whatever the body does in between: it may change the collection, assign to the item and to
the variable `for`, run other loops and call functions, and a `#continue` makes no difference.

* A turn begins with the item bound to its entry and the variable `for` bound to its status
  (`Walker.Begins`): the frame of the loop is there in front of every turn, since the body puts back
  what it opens.
* The outer status is the one that is seen from the frame that the loop stands in. The frame of the
  loop binds nothing while the collection is evaluated, so it sees the same.
* The maps that stand for the entries of a map are new, and nothing refers to those whose turns are
  yet to come: they are set aside, and each turn takes up one of them (`RenderState.Awaits`). So they
  have the keys and values that the map had when the loop began (`Walker.turns_records`).

Main definitions: `Value.Outer`, `LoopStatus.Tells`, `Walker.Begins`, `RenderState.Awaits`,
`RenderState.Closed`.
Main statement: `loop_runs_entries`.
-/

namespace Stencil

open Render

variable {config : Config} {scope frame : ScopeId} {v : Value}

/-! ### The frame of a loop -/

namespace Scopes

variable {s : Scopes}

/-- Assignments from within a frame go to frames that are not above it. -/
theorem target_le (s : Scopes) (scope : ScopeId) (name : String) (policy : Policy) :
    s.target scope name policy ≤ scope := by
  cases policy with
  | nearest =>
    rw [target]
    cases hholder : s.holder? scope name with
    | none => exact Nat.zero_le _
    | some holder => exact holder?_le hholder
  | inner => exact Nat.le_refl _
  | root => exact Nat.zero_le _

/-- A frame that binds nothing sees what its parent sees. -/
theorem get_of_unbound (hlink : s.link? frame = some (some scope)) (hlt : scope < frame)
    {name : String} (hslot : s.slot? frame name = none) (shared : Assoc Value) :
    s.get shared frame name = s.get shared scope name := by
  have hholder : s.holder? frame name = s.holder? scope name := by
    rw [holder?_of_link, hlink, hslot]
    simp [hlt]
  rw [get, get, binding?_of_holder, binding?_of_holder, hholder]

/-- A frame sees its own binding of a name. -/
theorem get_of_slot? {name : String} (hslot : s.slot? frame name = some v) (shared : Assoc Value) :
    s.get shared frame name = v := by
  have hholder : s.holder? frame name = some frame := by
    rw [holder?_of_link, hslot]
    obtain ⟨f, hf, -⟩ := Option.bind_eq_some_iff.mp hslot
    simp [link?, hf]
  rw [get, binding?_of_holder, hholder, Option.bind_some, hslot]
  rfl

end Scopes

/-- An evaluation in a frame binds nothing in the frames above it. -/
def Eval.LeavesAbove {α : Type} (scope : ScopeId) (act : Eval α) : Prop :=
  ∀ m, ∀ i, scope < i → ∀ name, (act.runOn m).2.scopes.slot? i name = m.scopes.slot? i name

namespace Eval.LeavesAbove

variable {α β : Type}

/-- Evaluations that bind nothing above go on with such evaluations. -/
theorem bind {x : Eval α} {f : α → Eval β} (hx : x.LeavesAbove scope)
    (hf : ∀ a, (f a).LeavesAbove scope) : (x >>= f).LeavesAbove scope := by
  intro m i hi name
  have hmid := hx m i hi name
  rw [runOn_bind]
  rcases hrun : x.runOn m with ⟨_ | a, mid⟩
  · rw [hrun] at hmid
    exact hmid
  · rw [hrun] at hmid
    exact (hf a mid i hi name).trans hmid

/-- A quiet evaluation binds nothing. -/
theorem quiet {act : Eval α} (h : act.Quiet) : act.LeavesAbove scope := by
  induction h with
  | pure | throw | memory | onHeap => exact fun _ _ _ _ => rfl
  | bind _ _ hx hf => exact bind hx hf

/-- Evaluations bind nothing in frames above their own, by their rules. -/
theorem evalComposes (host : Host) (scope : ScopeId) :
    EvalComposes host scope fun _ act => act.LeavesAbove scope where
  silent := quiet
  bind := bind
  lookup _ _ _ _ _ := rfl
  assign name value m i hi k := by
    change (m.scopes.set m.control.policy scope name value).slot? i k = _
    have hle := m.scopes.target_le scope name m.control.policy
    rw [Scopes.set, Scopes.slot?_bind_of_link, if_neg]
    rintro ⟨rfl, -⟩
    exact absurd hi (Nat.not_lt.mpr hle)
  withNullSafe h m := h { m with control := { m.control with nullSafe := true } }
  withPolicy policy _ _ h m := h { m with control := { m.control with policy } }
  noting := id

end Eval.LeavesAbove

/-- What a frame that has been opened sees behind an evaluation in its parent is what the parent
sees. -/
theorem get_opened {e : Expr} {st : RenderState} (hscope : scope < st.memory.scopes.frames.size)
    {result : Except Error Value} {m : Memory}
    (heval : (e.eval config.host scope).runOn (st.opened scope).memory = (result, m))
    (shared : Assoc Value) (name : String) :
    m.scopes.get shared st.memory.scopes.frames.size name = m.scopes.get shared scope name := by
  have hparents := (e.eval_restores config.host scope (st.opened scope).memory).1
  have habove := (Eval.LeavesAbove.evalComposes config.host scope).eval e (st.opened scope).memory
    st.memory.scopes.frames.size hscope name
  rw [heval] at hparents habove
  -- The frame has its parent still, and binds nothing still.
  refine Scopes.get_of_unbound ?_ hscope ?_ shared
  · rw [(Scopes.links_of_parents_eq hparents).2]
    exact congrArg (Option.map Frame.parent) Array.getElem?_push_size
  · rw [habove]
    refine (Scopes.slot?_push _ _ _ _).trans ?_
    rw [Scopes.slot?, Array.getElem?_size]
    rfl

/-! ### What a turn begins with -/

/-- The outer status of a loop, from what the variable `for` stands for around it: this, if it is a
loop status, else null. -/
def Value.Outer (seen outer : Value) : Prop :=
  (∃ id, seen = .status id ∧ outer = .status id) ∨ ((∀ id, seen ≠ .status id) ∧ outer = .null)

/-- Null is no loop status, so the status around is null too. -/
theorem Value.Outer.null : Value.null.Outer .null := .inr ⟨fun _ => Value.noConfusion, rfl⟩

/-- No status around a loop is a map. -/
theorem Value.Outer.noMap {seen outer : Value} (h : seen.Outer outer) : outer.NoMap := by
  rcases h with ⟨id, -, rfl⟩ | ⟨-, rfl⟩
  · exact fun _ => Value.noConfusion
  · exact Value.noMap_null

/-- What the fields of a loop status tell of turn `k`, of `n`. -/
structure LoopStatus.Tells (s : LoopStatus) (k n : Nat) (around : Value) : Prop where
  index : s.field? "index" = some (.ofNat k)
  count : s.field? "count" = some (.ofNat (k + 1))
  first : s.field? "first" = some (.bool (k = 0))
  odd : s.field? "odd" = some (.bool ((k + 1) % 2 = 1))
  last : s.field? "last" = some (.bool (k + 1 = n))
  size : s.field? "size" = some (.ofNat n)
  outer : s.field? "outer" = some around

/-- A turn begins with the item bound to its entry and the variable `for` bound to its status. An
item that is named `for` is hidden by the status. -/
structure Walker.Begins (w : Walker) (shared : Assoc Value) (index : Nat) (entry : Value)
    (start : RenderState) : Prop where
  item : w.item ≠ "for" → start.memory.scopes.get shared w.frame w.item = entry
  status : ∃ id, start.memory.scopes.get shared w.frame "for" = .status id ∧
    (start.memory.heap.status id).Tells index w.size w.outer

namespace Walker

variable {w : Walker}

/-- The status of a turn tells the number of the turn. -/
theorem status_tells (w : Walker) (index : Nat) : (w.status index).Tells index w.size w.outer where
  index := rfl
  count := rfl
  first := congrArg (some <| Value.bool ·) (beq_eq_decide index 0)
  odd := congrArg (some <| Value.bool ·) (beq_eq_decide ((index + 1) % 2) 1)
  last := rfl
  size := rfl
  outer := rfl

/-- Where the frame of the loop is there, a turn begins as it should. -/
theorem begins_enter {st : RenderState} (hframe : w.frame < st.memory.scopes.frames.size)
    (shared : Assoc Value) (index : Nat) (entry : Value) :
    w.Begins shared index entry (w.enter index entry st) := by
  have hframe' : w.frame < (st.memory.scopes.bind w.frame w.item entry).frames.size := by
    rwa [(Scopes.links_of_parents_eq (st.memory.scopes.parents_bind _ _ _)).1]
  refine ⟨fun hname => Scopes.get_of_slot? ?_ shared, ⟨st.memory.heap.statuses.size⟩,
    Scopes.get_of_slot? ?_ shared, ?_⟩
  -- The item is bound first, and the status over it if the two have the same name.
  · rw [enter, Scopes.slot?_bind _ hframe', if_neg fun h => hname h.2, Scopes.slot?_bind _ hframe,
      if_pos ⟨rfl, rfl⟩]
  · rw [enter, Scopes.slot?_bind _ hframe', if_pos ⟨rfl, rfl⟩]
    rfl
  · have hstatus : (w.enter index entry st).memory.heap.status ⟨st.memory.heap.statuses.size⟩ =
        w.status index := (getD_push ..).trans (if_pos rfl)
    rw [hstatus]
    exact w.status_tells index

/-- **Every turn begins with its entry and its status**, if the body puts back the frames. -/
theorem turns_begin {body : Render Unit} (hbody : body.Restores) {entries : List Value}
    {st : RenderState} (hframe : w.frame < st.memory.scopes.frames.size) (shared : Assoc Value)
    {k : Nat} {entry : Value} (hentry : entries[k]? = some entry) :
    ∃ t, (w.turns body.runOn 0 entries st)[k]? = some t ∧
      body.runOn t.start = (t.result, t.after) ∧ w.Begins shared k entry t.start := by
  -- In front of every turn, the frame of the loop is there.
  obtain ⟨st', hst', hturn⟩ := @turns_invariant w body.runOn
    (fun _ st => w.frame < st.memory.scopes.frames.size) 0 entries st hframe
    (fun k entry st _ hst => by
      have hparents : (w.enter (0 + k) entry st).memory.scopes.parents = st.memory.scopes.parents :=
        ((Scopes.parents_bind _ _ _ _).trans (Scopes.parents_bind _ _ _ _))
      have hroot : (w.enter (0 + k) entry st).memory.scopes.parents ≠ [] := by
        rw [hparents, ← List.length_pos_iff, Scopes.length_parents]
        exact Nat.zero_lt_of_lt hst
      have hskeleton := congrArg Skeleton.parents (hbody _ hroot)
      have hsize := (Scopes.links_of_parents_eq (hskeleton.trans hparents)).1
      exact Nat.lt_of_lt_of_eq hst hsize.symm) k entry hentry
  rw [Nat.zero_add] at hturn
  exact ⟨_, hturn, rfl, begins_enter hst' shared k entry⟩

end Walker

/-! ### The entries of a map -/

/-- The maps that stand for the entries of turn `k` and the later ones of a loop over a map, where
those of all `n` turns are the maps from number `base` on. -/
def entriesAhead (base n k : Nat) (id : MapId) : Prop := base + k ≤ id.index ∧ id.index < base + n

/-- The maps from number `base` on are as given, and they are set aside from number `k` of them on.
What a library holds is compiled. -/
structure RenderState.Awaits (config : Config) (base : Nat) (records : List (Assoc Value)) (k : Nat)
    (st : RenderState) : Prop where
  memory : st.memory.Clear config.host (entriesAhead base records.length k)
  library : st.library.Made config
  records : ∀ j record, k ≤ j → records[j]? = some record → st.memory.heap.map ⟨base + j⟩ = record

/-- All that the variables, the heap and the host hold is there, and what the library holds is
compiled. -/
structure RenderState.Closed (config : Config) (st : RenderState) : Prop where
  memory : st.memory.Clear config.host fun _ => False
  library : st.library.Made config

/-- A render starts in a closed state, if all that the data, the heap and the host hold is there. -/
theorem RenderState.closed_start {heap : Heap} {data : Assoc Value} {library : Library}
    (hheap : heap.Clear fun _ => False)
    (hdata : ∀ e ∈ data.entries, e.2.Clear (fun _ => False) heap.maps.size)
    (hoffered : ∀ {v}, config.host.Offers v → v.Clear (fun _ => False) heap.maps.size)
    (hlibrary : library.Made config) (output : Output) (files : Files) :
    RenderState.Closed config ⟨⟨heap, .ofData data, {}⟩, output, library, files⟩ where
  memory :=
    { heap := hheap
      -- There is one frame, and it binds the data.
      bound := fun {i name v} hv => by
        obtain ⟨frame, hframe, hget⟩ := Option.bind_eq_some_iff.mp hv
        have hmem := Array.mem_toList_iff.mpr (Array.mem_of_getElem? hframe)
        obtain rfl := List.mem_singleton.mp hmem
        exact hdata (name, v) (Assoc.mem_entries_of_get? hget)
      offered := hoffered }
  library := hlibrary

/-- Runs of statements keep a state closed. -/
theorem RenderState.Closed.exec {st : RenderState} (hst : st.Closed config) (honest : config.Honest)
    {functions : Assoc TemplateFunction} {s : Statement}
    (hfunctions : ∀ e ∈ functions.entries, e.2.body.Sound config) (hs : s.Sound config)
    (fuel : Nat) (scope : ScopeId) :
    ((s.exec config fuel functions scope).runOn st).2.Closed config := by
  obtain ⟨honward, hlibrary, -⟩ :=
    s.exec_passes honest fuel hfunctions hs scope 0 st hst.memory hst.library (Nat.zero_le _)
  exact ⟨honward.clear, hlibrary⟩

namespace Heap

variable {h : Heap} {id : MapId}

/-- Entries take a map each. -/
theorem size_withEntries (h : Heap) (id : MapId) :
    (h.withEntries (.map id)).maps.size = h.maps.size + (h.map id).entries.length := by
  rw [withEntries, Array.size_append, ← List.length_map entryRecord]
  rfl

/-- The maps that a loop over a map makes stand for its entries. -/
theorem map_withEntries (h : Heap) (id : MapId) {j : Nat} {record : Assoc Value}
    (hrecord : ((h.map id).entries.map entryRecord)[j]? = some record) :
    (h.withEntries (.map id)).map ⟨h.maps.size + j⟩ = record := by
  rw [withEntries, map, Array.getD_eq_getD_getElem?,
    Array.getElem?_append_right (Nat.le_add_right _ _), Nat.add_sub_cancel_left,
    List.getElem?_toArray, hrecord]
  rfl

/-- Entries hold what their map holds, and keys. -/
theorem stores_withEntries (hv : (h.withEntries (.map id)).Stores v) : h.Stores v ∨ v.NoMap := by
  cases hv with
  | @entry id' key v hv =>
    rw [withEntries, map, Array.getD_eq_getD_getElem?, Array.getElem?_append] at hv
    split at hv
    · rw [← Array.getD_eq_getD_getElem?] at hv
      exact .inl (.entry hv)
    -- a map at the end is one of the entries, and holds its key and its value
    · rw [List.getElem?_toArray, List.getElem?_map] at hv
      cases hentry : (h.map id).entries[id'.index - h.maps.size]? with
      | none =>
        rw [hentry] at hv
        exact absurd hv List.not_mem_nil
      | some e =>
        rw [hentry] at hv
        rcases Assoc.mem_entries_insertAll hv with hempty | hpair
        · exact absurd hempty List.not_mem_nil
        rcases List.mem_cons.mp hpair with hkey | hvalue
        · exact .inr ((Prod.mk.inj hkey).2 ▸ Value.noMap_str _)
        · obtain ⟨-, rfl⟩ := Prod.mk.inj (List.mem_singleton.mp hvalue)
          exact .inl (.entry (List.mem_of_getElem? hentry))
  | item hv => exact .inl (.item hv)
  | remaining hv => exact .inl (.remaining hv)
  | outer id => exact .inl (.outer id)
  | field hv => exact .inl (.field hv)

end Heap

/-- The state in which the turns of a loop begin: the collection has been evaluated, and there are
the maps that stand for the entries of a map. -/
def RenderState.entered (st : RenderState) (m : Memory) (v : Value) : RenderState :=
  { st with memory := { m with heap := m.heap.withEntries v } }

/-- The collection of a loop is evaluated in a state that stays closed. -/
theorem RenderState.Closed.evaluated {st : RenderState} {m : Memory} {e : Expr}
    (hst : st.Closed config) (honest : config.Honest) (he : e.Literal)
    (heval : (e.eval config.host scope).runOn (st.opened scope).memory = (.ok v, m)) :
    m.Clear config.host fun _ => False := by
  obtain ⟨honward, -⟩ := e.eval_passes honest.host scope 0 he (st.opened scope).memory
    (hst.memory.push scope) (Nat.zero_le _)
  rw [heval] at honward
  exact honward.clear

/-- In front of the turns of a loop over a map, all of its entries are awaited. -/
theorem RenderState.Closed.entered {st : RenderState} {m : Memory} (hst : st.Closed config)
    (hm : m.Clear config.host fun _ => False) (id : MapId) :
    (st.entered m (.map id)).Awaits config m.heap.maps.size
      ((m.heap.map id).entries.map entryRecord) 0 := by
  have hsize := m.heap.size_withEntries id
  -- What has been there is none of the maps that have been made.
  have hclear {v : Value} (hv : v.Clear (fun _ => False) m.heap.maps.size) :
      v.Clear (entriesAhead m.heap.maps.size ((m.heap.map id).entries.map entryRecord).length 0)
        (m.heap.withEntries (.map id)).maps.size := by
    intro id' hid'
    have hlt := (hv id' hid').1
    exact ⟨by omega, fun hahead => absurd hahead.1 (by omega)⟩
  refine ⟨⟨⟨fun id' hid' => ?_, fun v hv => ?_⟩, fun hv => hclear (hm.bound hv),
    fun hv => hclear (hm.offered hv)⟩, hst.library, fun j record _ hrecord =>
      m.heap.map_withEntries id hrecord⟩
  · have hlt := hid'.2
    rw [List.length_map] at hlt
    exact Nat.lt_of_lt_of_eq hlt hsize.symm
  · rcases Heap.stores_withEntries hv with hv | hv
    · exact hclear (hm.heap.stored v hv)
    · exact hv.clear

namespace Walker

variable {w : Walker} {base k : Nat} {records : List (Assoc Value)} {st : RenderState}

/-- A turn takes up the map for its entry, and those for the later entries are still awaited. -/
theorem awaits_enter (houter : w.outer.NoMap) (hst : st.Awaits config base records k)
    (hk : k < records.length) :
    (w.enter k (.map ⟨base + k⟩) st).Awaits config base records (k + 1) := by
  -- The map for the entry is bound from here on, so it is no longer aside, but it is there.
  have hthere := hst.memory.heap.there ⟨base + k⟩ ⟨Nat.le_refl _, Nat.add_lt_add_left hk _⟩
  have hclear : st.memory.Clear config.host (entriesAhead base records.length (k + 1)) :=
    hst.memory.fewer fun id hid => ⟨Nat.le_of_succ_le hid.1, hid.2⟩
  have hstatus := hclear.onHeap (hclear.heap.newStatus (s := w.status k) houter.clear)
  have hitem : (Value.map ⟨base + k⟩).Clear (entriesAhead base records.length (k + 1))
      st.memory.heap.maps.size := by
    rintro _ ⟨⟩
    exact ⟨hthere, fun hahead => absurd hahead.1 (Nat.not_succ_le_self _)⟩
  have hbound := (hstatus.clear.bind hitem w.frame w.item).clear.bind
    (v := (st.memory.heap.newStatus (w.status k)).1)
    (Value.NoMap.clear fun _ => Value.noConfusion) w.frame "for"
  exact ⟨hbound.clear, hst.library, fun j record hj => hst.records j record (Nat.le_of_succ_le hj)⟩

/-- What leaves maps alone that are set aside leaves alone what is awaited. -/
theorem awaits_left {body : Render Unit} (hbody : ∀ aside n, body.Keeps config aside n)
    {entry : Value} (hst : (w.enter k entry st).Awaits config base records (k + 1)) :
    (w.turn body.runOn k entry st).left.Awaits config base records (k + 1) := by
  obtain ⟨honward, hlibrary, -⟩ :=
    hbody _ 0 (w.enter k entry st) hst.memory hst.library (Nat.zero_le _)
  refine ⟨honward.clear.withControl _, hlibrary, fun j record hj hrecord => ?_⟩
  have hahead : entriesAhead base records.length (k + 1) ⟨base + j⟩ :=
    ⟨Nat.add_le_add_left hj _, Nat.add_lt_add_left (List.getElem?_eq_some_iff.mp hrecord).1 _⟩
  exact (honward.heap.kept _ hahead).trans (hst.records j record hj hrecord)

/-- The maps from number `base` on, one after the other. -/
theorem getElem?_mapsFrom (base : Nat) {n k : Nat} (hk : k < n) :
    ((List.range n).map fun k => Value.map ⟨base + k⟩)[k]? = some (.map ⟨base + k⟩) := by
  rw [List.getElem?_map, List.getElem?_range hk]
  rfl

/-- **In every turn of a loop over a map the item is the entry as it was** when the loop began. -/
theorem turns_records {body : Render Unit} (hbody : ∀ aside n, body.Keeps config aside n)
    (houter : w.outer.NoMap) (hst : st.Awaits config base records 0) {record : Assoc Value}
    (hrecord : records[k]? = some record) :
    ∃ t, (w.turns body.runOn 0 ((List.range records.length).map fun k => .map ⟨base + k⟩) st)[k]? =
        some t ∧ t.start.memory.heap.map ⟨base + k⟩ = record := by
  have hlt := (List.getElem?_eq_some_iff.mp hrecord).1
  -- In front of turn `k`, the entries from `k` on are awaited.
  obtain ⟨st', hst', hturn⟩ := @turns_invariant w body.runOn
    (RenderState.Awaits config base records) 0 _ st hst
    (fun k entry st hk hst => by
      rw [Nat.zero_add] at hst ⊢
      have hlt : k < records.length := by
        have hlt := (List.getElem?_eq_some_iff.mp hk).1
        rwa [List.length_map, List.length_range] at hlt
      obtain rfl := Option.some.inj ((getElem?_mapsFrom base hlt).symm.trans hk)
      exact awaits_left hbody (awaits_enter houter hst hlt)) k _ (getElem?_mapsFrom base hlt)
  rw [Nat.zero_add] at hst' hturn
  exact ⟨_, hturn, hst'.records k record (Nat.le_refl k) hrecord⟩

end Walker

/-! ### The turns of a loop -/

/-- No statement is executed in the evaluation of an expression. -/
theorem executions_eval (host : Host) (scope : ScopeId) (e : Expr) (m : Memory) :
    executions ((Recorded.eval host scope e).record m) = [] := by
  have hnone := (Recorded.Executes.evalComposes (P := fun _ => False) host scope).eval e m
  refine List.filter_eq_nil_iff.mpr fun moment hmoment hexecution => ?_
  obtain ⟨s, hs⟩ := Option.isSome_iff_exists.mp hexecution
  exact hnone moment hmoment s hs

/-- A loop finds its outer status where it stands. -/
theorem Recorded.outerStatus_eq (config : Config) (frame : ScopeId) (st : RenderState) :
    ∃ outer, (st.memory.scopes.get config.host.objects frame "for").Outer outer ∧
      (Recorded.outerStatus config frame).outcome st = (.ok outer, st) ∧
      executions ((Recorded.outerStatus config frame).record st) = [] := by
  have hlookup : (Recorded.ofEval (Recorded.lookup config.host frame "for")).outcome st =
      (.ok (st.memory.scopes.get config.host.objects frame "for"), st) := rfl
  have hrecord : (Recorded.ofEval (Recorded.lookup config.host frame "for")).record st =
      [.read frame "for" st.memory] := rfl
  unfold Recorded.outerStatus
  rw [Recorded.outcome_bind, Recorded.record_bind, hlookup, hrecord]
  dsimp only
  generalize st.memory.scopes.get config.host.objects frame "for" = seen
  cases seen with
  | status id => exact ⟨.status id, .inl ⟨id, rfl, rfl⟩, rfl, rfl⟩
  | _ => exact ⟨.null, .inr ⟨fun _ => Value.noConfusion, rfl⟩, rfl, rfl⟩

/-- A loop evaluates its collection, and runs its turns. -/
theorem Recorded.runLoop_eq {fuel : Nat} {item : String} {target : Expr} {st : RenderState}
    {m : Memory} (htarget : (target.eval config.host scope).runOn st.memory = (.ok v, m))
    (hv : ∀ id, v ≠ .iter id) (hfuel : (m.heap.entries v).length < fuel) (frame : ScopeId)
    (x : Recorded RenderState Stop Unit) :
    ∃ outer, (m.scopes.get config.host.objects frame "for").Outer outer ∧
      let w : Walker := ⟨item, frame, (m.heap.entries v).length, outer⟩
      let ts := w.turns x.outcome 0 (m.heap.entries v) (st.entered m v)
      let loop := Recorded.runLoop config fuel (.each item target) scope frame x
      (∀ t ∈ ts, t.GoesOn) →
        loop.outcome st =
          (.ok (decide (0 < (m.heap.entries v).length)), Walker.leftBehind ts (st.entered m v)) ∧
        executions (loop.record st) = ts.flatMap fun t => executions (x.record t.start) := by
  have hcollection : (Recorded.ofEval (Recorded.eval config.host scope target)).outcome st =
      (.ok v, { st with memory := m }) := Recorded.outcome_ofEval htarget
  -- the collection is evaluated before the frame of the loop has any binding
  have hevaluated :
      executions ((Recorded.ofEval (Recorded.eval config.host scope target)).record st) = [] :=
    executions_eval config.host scope target st.memory
  obtain ⟨outer, houter, hfound, hlooked⟩ :=
    Recorded.outerStatus_eq config frame { st with memory := m }
  obtain ⟨walk, hwalk, hgives, -⟩ := Walk.ofValue_gives hv m.heap
  have hentered : (Recorded.silent (Render.ofEval (Eval.onHeap (Walk.ofValue v)))).outcome
      { st with memory := m } = (.ok walk, st.entered m v) := by
    change (Except.ok (Walk.ofValue v m.heap).1,
      { st with memory := { m with heap := (Walk.ofValue v m.heap).2 } }) = _
    rw [hwalk]
    rfl
  have hsilent : (Recorded.silent (Render.ofEval (Eval.onHeap (Walk.ofValue v)))).record
      { st with memory := m } = [] := rfl
  -- to enter the loop is silent, so all executions are those of the turns
  refine ⟨outer, houter, fun hall => ?_⟩
  obtain ⟨houtcome, hrecord⟩ := Walker.walkTurns_eq
    (w := ⟨item, frame, (m.heap.entries v).length, outer⟩) hgives (Nat.zero_add _) hfuel hall
  unfold Recorded.runLoop
  dsimp only
  rw [Recorded.outcome_bind, Recorded.record_bind, hcollection]
  dsimp only
  rw [Recorded.outcome_bind, Recorded.record_bind, hfound]
  dsimp only
  rw [Recorded.outcome_bind, Recorded.record_bind, hentered]
  dsimp only
  rw [executions_append, executions_append, hevaluated, hlooked, hsilent]
  exact ⟨houtcome, hrecord⟩

/-- A loop whose turns all go on executes what its turns execute. If there is none, it then executes
its `#else`. -/
theorem Recorded.exec_loop_eq {fuel : Nat} (functions : Assoc TemplateFunction) (item : String)
    {target : Expr} (body otherwise : Statement) (loops : Nat) {st : RenderState} {m : Memory}
    (hscope : scope < st.memory.scopes.frames.size)
    (htarget : (target.eval config.host scope).runOn (st.opened scope).memory = (.ok v, m))
    (hv : ∀ id, v ≠ .iter id) (hfuel : (m.heap.entries v).length < fuel) :
    let frame := st.memory.scopes.frames.size
    let entries := m.heap.entries v
    let turn := Recorded.exec config fuel functions body frame (loops + 1)
    let rest := if entries = [] then Recorded.exec config fuel functions otherwise frame loops
      else pure ()
    let loop := Recorded.exec config (fuel + 1) functions (.loop (.each item target) body otherwise)
      scope loops
    ∃ outer, (m.scopes.get config.host.objects scope "for").Outer outer ∧
      let w : Walker := ⟨item, frame, entries.length, outer⟩
      let ts := w.turns turn.outcome 0 entries (st.entered m v)
      let left := Walker.leftBehind ts (st.entered m v)
      (∀ t ∈ ts, t.GoesOn) →
        loop.outcome st = ((rest.outcome left).1, (rest.outcome left).2.dropped frame) ∧
        executions (loop.record st) = (ts.flatMap fun t => executions (turn.record t.start)) ++
          executions (rest.record left) ++
          [.executed ⟨fuel + 1, functions, scope, loops⟩ (.loop (.each item target) body otherwise)
            st (loop.outcome st).1 (loop.outcome st).2] := by
  intro frame entries turn rest loop
  obtain ⟨outer, houter, hrun⟩ := @Recorded.runLoop_eq config scope v fuel item target
    (st.opened scope) m htarget hv hfuel frame turn
  rw [get_opened hscope htarget] at houter
  refine ⟨outer, houter, fun hall => ?_⟩
  obtain ⟨houtcome, hrecord⟩ := hrun hall
  -- the loop is its turns, then the branch for no turns, in a frame of its own
  let steps : Recorded RenderState Stop Unit := do
    if ← Recorded.runLoop config fuel (.each item target) scope frame turn then pure ()
    else Recorded.exec config fuel functions otherwise frame loops
  have hloop : loop.outcome st = ((steps.outcome (st.opened scope)).1,
      (steps.outcome (st.opened scope)).2.dropped frame) := by
    simp only [loop]
    rw [Recorded.exec]
    rfl
  have hmoments : loop.record st = steps.record (st.opened scope) ++
      [.executed ⟨fuel + 1, functions, scope, loops⟩ (.loop (.each item target) body otherwise)
        st (loop.outcome st).1 (loop.outcome st).2] := by
    simp only [loop]
    rw [Recorded.exec]
    rfl
  have hexecuted (moment : Moment) (h : moment.isExecution = true) :
      executions (steps.record (st.opened scope) ++ [moment]) =
        executions (steps.record (st.opened scope)) ++ [moment] := by
    rw [executions_append]
    exact congrArg _ (List.filter_cons_of_pos h)
  -- The loop has run if there is an entry.
  -- without entries the turns have ended at once, so the branch for no turns follows
  have hrest : (if decide (0 < entries.length) then pure ()
      else Recorded.exec config fuel functions otherwise frame loops) = rest := by
    by_cases hempty : entries = []
    · simp [rest, hempty]
    · simp [rest, hempty, List.length_pos_iff]
  rw [hmoments, hexecuted _ rfl, hloop, Recorded.outcome_bind, Recorded.record_bind, houtcome]
  dsimp only
  rw [hrest, executions_append, hrecord]
  exact ⟨rfl, rfl⟩

/-- **A loop over a collection runs its body once for every entry** that the collection has when the
loop begins, in order, whatever the body does in between. Each run begins with the item bound to its
entry and the variable `for` bound to its status, whose outer status is the one that is seen around
the loop. An entry of a map is a map with the key and the value that there were when the loop began,
in states that are closed and where the host is honest.

If no run of the body ends the loop, then what is executed in the loop is what these runs execute,
and behind them the `#else` if there is no entry. -/
theorem loop_runs_entries {fuel : Nat} {functions : Assoc TemplateFunction} {item : String}
    {target : Expr} {body otherwise : Statement} (loops : Nat) {st : RenderState} {m : Memory}
    (hscope : scope < st.memory.scopes.frames.size)
    (htarget : (target.eval config.host scope).runOn (st.opened scope).memory = (.ok v, m))
    (hv : ∀ id, v ≠ .iter id) (hfuel : (m.heap.entries v).length < fuel) :
    let loop : Statement := .loop (.each item target) body otherwise
    let frame := st.memory.scopes.frames.size
    let entries := m.heap.entries v
    let run (s : Statement) := (s.exec config fuel functions frame).runOn
    ∃ outer, (m.scopes.get config.host.objects scope "for").Outer outer ∧
      let w : Walker := ⟨item, frame, entries.length, outer⟩
      let ts := w.turns (run body) 0 entries (st.entered m v)
      ts.length = entries.length ∧
      (∀ k entry, entries[k]? = some entry → ∃ t, ts[k]? = some t ∧
        run body t.start = (t.result, t.after) ∧ w.Begins config.host.objects k entry t.start) ∧
      (config.Honest → loop.Sound config → (∀ e ∈ functions.entries, e.2.body.Sound config) →
        st.Closed config → ∀ id, v = .map id →
          ∀ (k : Nat) (e : String × Value), (m.heap.map id).entries[k]? = some e →
          ∃ (rid : MapId) (t : Turn), entries[k]? = some (Value.map rid) ∧ ts[k]? = some t ∧
            t.start.memory.heap.map rid = entryRecord e) ∧
      ((∀ t ∈ ts, t.GoesOn) →
        let left := Walker.leftBehind ts (st.entered m v)
        let whole := (loop.exec config (fuel + 1) functions scope).runOn st
        (entries ≠ [] → whole = (.ok (), left.dropped frame)) ∧
        (entries = [] → whole = ((run otherwise left).1, (run otherwise left).2.dropped frame)) ∧
        executions ((Recorded.exec config (fuel + 1) functions loop scope loops).record st) =
          (ts.flatMap fun t =>
            executions ((Recorded.exec config fuel functions body frame (loops + 1)).record
              t.start)) ++
          (if entries = [] then
            executions ((Recorded.exec config fuel functions otherwise frame loops).record left)
          else []) ++
          [.executed ⟨fuel + 1, functions, scope, loops⟩ loop st whole.1 whole.2]) := by
  intro loop frame entries run
  -- Runs with a record are the runs themselves.
  -- what the record says of a statement is what its run does
  have hsame (s : Statement) (loops : Nat) :
      (Recorded.exec config fuel functions s frame loops).outcome = run s :=
    funext (Recorded.exec_faithful config fuel functions s frame loops).outcome
  obtain ⟨outer, houter, hloop⟩ :=
    Recorded.exec_loop_eq functions item body otherwise loops hscope htarget hv hfuel
  have hframe : frame < m.scopes.frames.size := by
    have hparents := (target.eval_restores config.host scope (st.opened scope).memory).1
    rw [htarget] at hparents
    rw [(Scopes.links_of_parents_eq hparents).1]
    exact Nat.lt_of_lt_of_eq (Nat.lt_succ_self _) (Array.size_push _).symm
  refine ⟨outer, houter, Walker.length_turns _ _ _ _, fun k entry hentry => ?_, ?_, fun hall => ?_⟩
  · exact Walker.turns_begin (Statement.exec_restores fuel functions body frame) hframe
      config.host.objects hentry
  -- The body leaves alone the maps for the entries whose turns are yet to come.
  · rintro honest hsound hfunctions hst id rfl k e he
    obtain ⟨hhead, -⟩ := List.forall_mem_append.mp hsound.literal
    have hbody := ((handedOn_sound config).loop hsound).1
    have hm := hst.evaluated honest (hhead target (List.mem_singleton_self _)) htarget
    have hrecord : ((m.heap.map id).entries.map entryRecord)[k]? = some (entryRecord e) := by
      rw [List.getElem?_map, he]
      rfl
    obtain ⟨t, ht, hkept⟩ := Walker.turns_records (w := ⟨item, frame, entries.length, outer⟩)
      (fun aside n => body.exec_passes honest fuel hfunctions hbody frame n) houter.noMap
      (hst.entered hm id) hrecord
    rw [List.length_map] at ht
    have hentry : entries[k]? = some (Value.map ⟨m.heap.maps.size + k⟩) :=
      Walker.getElem?_mapsFrom m.heap.maps.size (List.getElem?_eq_some_iff.mp he).1
    exact ⟨⟨m.heap.maps.size + k⟩, t, hentry, ht, hkept⟩
  · obtain ⟨houtcome, hrecord⟩ := hloop fun t ht => hall t (by rwa [hsame] at ht)
    rw [(Recorded.exec_faithful config (fuel + 1) functions loop scope loops).outcome, hsame]
      at houtcome
    rw [(Recorded.exec_faithful config (fuel + 1) functions loop scope loops).outcome, hsame]
      at hrecord
    -- with an entry, without any, and the record of both
    refine ⟨fun hsome => ?_, fun hnone => ?_, ?_⟩
    · rw [if_neg hsome] at houtcome
      exact houtcome
    · rw [if_pos hnone, hsame] at houtcome
      exact houtcome
    · rw [hrecord]
      congr 2
      split <;> rfl

/-- A loop over a map whose body takes the second entry out of it: there are two runs of the body
all the same, and in the second one the item is the entry that is gone. -/
theorem loop_runs_entries_removed :
    let taking : Expr := .method (.var "m") "remove" [.const (.str "b")] default
    let body : Statement := .block [.output taking, .jump .continue]
    let loop : Statement := .loop (.each "e" (.var "m")) body (.text "none")
    let heap := (({} : Heap).newMap (.ofList [("a", .int 1), ("b", .int 2)])).2
    let st : RenderState :=
      ⟨⟨heap, .ofData (.ofList [("m", .map ⟨0⟩)]), {}⟩, .unlimited, {}, {}⟩
    ∃ (start : RenderState) (rid : MapId),
      start.memory.scopes.get .empty 1 "e" = .map rid ∧
      start.memory.heap.map rid = .ofList [("key", .str "b"), ("value", .int 2)] ∧
      (start.memory.heap.map ⟨0⟩).keys = ["a"] ∧
      ((loop.exec {} 9 .empty 0).runOn st).2.output.received = "2" := by
  intro taking body loop heap st
  have hsound : loop.Sound {} :=
    { alike := .loop _ (.block (.cons (.output _) (.cons (.jump _) .nil))) (.text _)
      literal := by
        have hconsts : loop.exprs.flatMap Expr.consts = [.str "b"] := rfl
        intro e he v hv
        obtain rfl := List.mem_singleton.mp (hconsts ▸ List.mem_flatMap.mpr ⟨e, he, hv⟩)
        exact Value.noMap_str _ }
  -- at the start the map is bound to a name of the data, and to nothing else
  have hclosed : st.Closed {} := by
    have hone {n : Int32} : (Value.int n).Clear (fun _ => False) 0 :=
      Value.NoMap.clear fun _ => Value.noConfusion
    obtain ⟨hheap, hmap⟩ := @Heap.Clear.newMap _ _ Heap.clear_empty
      (.ofList [("a", .int 1), ("b", .int 2)])
      (List.forall_mem_cons.mpr ⟨hone, List.forall_mem_singleton.mpr hone⟩)
    refine RenderState.closed_start hheap.clear ?_ ?_ (.empty _) _ _
    · exact List.forall_mem_singleton.mpr hmap
    · rintro v (hobject | ⟨hspace, -⟩)
      · cases hobject
      · cases hspace
  have htarget : ((Expr.var "m").eval {} 0).runOn (st.opened 0).memory =
      (.ok (.map ⟨0⟩), (st.opened 0).memory) := by
    simp only [st, heap]
    cbv
  obtain ⟨outer, houter, -, hbegin, hentry, hends⟩ := @loop_runs_entries {} 0 (.map ⟨0⟩) 8 .empty
    "e" (.var "m") body (.text "none") 0 st (st.opened 0).memory (by decide) htarget
    (fun _ => Value.noConfusion) (by decide)
  -- around the loop is no other one
  obtain rfl : outer = .null := by
    have hnone : (st.opened 0).memory.scopes.get .empty 0 "for" = .null := by
      simp only [st, heap]
      cbv
    rcases houter with ⟨id, hid, -⟩ | ⟨-, hnull⟩
    · cases hnone.symm.trans hid
    · exact hnull
  obtain ⟨rid, t, hrid, ht, hrecord⟩ :=
    hentry Config.honest_empty hsound (List.forall_mem_nil _) hclosed ⟨0⟩ rfl 1 ("b", .int 2) rfl
  obtain ⟨t', ht', -, hbegins⟩ := hbegin 1 _ hrid
  obtain rfl := Option.some.inj (ht'.symm.trans ht)
  refine ⟨t'.start, rid, hbegins.item (by decide), hrecord, ?_, ?_⟩
  · have hkeys : ∀ t ∈ (Walker.turns ⟨"e", 1, 2, .null⟩ (body.exec {} 8 .empty 1).runOn 0
        (heap.entries (.map ⟨0⟩)) (st.entered (st.opened 0).memory (.map ⟨0⟩)))[1]?,
        (t.start.memory.heap.map ⟨0⟩).keys = ["a"] := by
      decide +kernel
    exact hkeys t' ht'
  · obtain ⟨hwhole, -⟩ := hends (by decide +kernel)
    rw [hwhole (by decide)]
    decide +kernel

/-- A loop whose item is named `for`, as in `#for(for : [7])#(for)#end`: the status hides it. -/
theorem not_loop_runs_entries :
    ¬ ∀ (config : Config) (fuel : Nat) (functions : Assoc TemplateFunction) (item : String)
      (target : Expr) (body : Statement) (scope : ScopeId) (st : RenderState) (v : Value)
      (m : Memory) (outer : Value),
      scope < st.memory.scopes.frames.size →
      (target.eval config.host scope).runOn (st.opened scope).memory = (.ok v, m) →
      (∀ id, v ≠ .iter id) → (m.heap.entries v).length < fuel →
      (m.scopes.get config.host.objects scope "for").Outer outer →
      let frame := st.memory.scopes.frames.size
      let w : Walker := ⟨item, frame, (m.heap.entries v).length, outer⟩
      let ts := w.turns (body.exec config fuel functions frame).runOn 0 (m.heap.entries v)
        (st.entered m v)
      (∀ t ∈ ts, t.GoesOn) → ∀ (k : Nat) (entry : Value), (m.heap.entries v)[k]? = some entry →
        ∃ t ∈ ts[k]?, t.start.memory.scopes.get config.host.objects frame item = entry := by
  intro hall
  let st : RenderState := ⟨⟨{}, .ofData .empty, {}⟩, .unlimited, {}, {}⟩
  let m : Memory := ⟨{ lists := #[#[.int 7]] }, (st.opened 0).memory.scopes, {}⟩
  have htarget : ((Expr.list [.const (.int 7)]).eval {} 0).runOn (st.opened 0).memory =
      (.ok (.list ⟨0⟩), m) := by
    simp only [st, m]
    cbv
  -- no loop is around this one
  have hnone : m.scopes.get .empty 0 "for" = .null := by
    simp only [m, st]
    cbv
  have hstatus : ∀ t ∈ (Walker.turns ⟨"for", 1, 1, .null⟩
      ((Statement.output (.var "for")).exec {} 5 .empty 1).runOn 0 (m.heap.entries (.list ⟨0⟩))
      (st.entered m (.list ⟨0⟩)))[0]?,
      (t.start.memory.scopes.get .empty 1 "for").isNumber = false := by
    decide +kernel
  -- the item is read as the status, which is no number
  obtain ⟨t, ht, hitem⟩ := hall {} 5 .empty "for" _ (.output (.var "for")) 0 st (.list ⟨0⟩) m .null
    (by decide) htarget (fun _ => Value.noConfusion) (by decide) (hnone ▸ .null)
    (by decide +kernel) 0 (.int 7) rfl
  exact Bool.false_ne_true ((hstatus t ht).symm.trans (congrArg Value.isNumber hitem))

end Stencil
