import Mathlib
import Stencil.Proofs.Expr.Spelling
import Stencil.Proofs.Render.Loops
import Stencil.Proofs.Template.Constants
import Stencil.Proofs.Value.History
import Stencil.Proofs.Value.Holding
import Stencil.Proofs.Value.Nesting

/-!
# Maps as dictionaries

A map of a template is a dictionary whose keys are the texts of the values they are given as. The
map of a literal may be changed under any name that refers to it, by index assignments, by `put` and
by `remove`, and in between anything may happen that leaves it alone (`Heap.Changes`). What it holds
then is what the history of its literal and its changes says (`Assoc.Records`), and all that lists
the map or reads from it, the methods, the text, loops, indexes and fields, goes by these entries
(`Heap.Dictionary`).

There is one thing that cannot be done to a map. It is locked for a write before the text of the key
is taken, and for this text all maps are read that the key holds. So a write under a key that is the
map or holds it waits for itself (`Heap.WaitsForItself`), and a render that gets to one goes no
further (`Render.runOn_assignAt_blocked`). Reading under such a key is nothing special.

The parser takes the key of a literal from a token. If the token is a constant, then this key is the
text of the constant, so an index with the constant finds the entry (`Lexeme.mapKey?_of_constant?`).

Main definitions: `Heap.Changes`, `Heap.Dictionary`, `Lexeme.constant?`.
Main statements: `Heap.dictionary`, `map_keeps_entries`, `not_map_keeps_entries`.
-/

namespace Stencil

open Eval

/-! ### Answers -/

namespace Heap

/-- The text of a value inside a list or a map. -/
def inside (h : Heap) (v : Value) : String := h.textTo (h.lists.size + h.maps.size) v

/-- What reads the entry of a key answers for the value that is stored under the text of the
key. -/
structure ReadsEntry (h : Heap) (operations : Assoc Operation) (id : MapId) (key : Value)
    (stored : Option Value) : Prop where
  index : ∀ nullSafe, h.readIndex nullSafe (.map id) key = .ok (stored.getD .null)
  get : h.callMethod operations (.map id) "get" [key] = (some (.ok (stored.getD .null)), h)
  getOrDefault : ∀ fallback, h.callMethod operations (.map id) "getOrDefault" [key, fallback] =
    (some (.ok (stored.getD fallback)), h)
  containsKey : h.callMethod operations (.map id) "containsKey" [key] =
    (some (.ok (.bool stored.isSome)), h)
  field : ∀ name, key = .str name → ∀ nullSafe,
    h.readField nullSafe (.map id) name = .ok (stored.getD .null)

/-- Nothing but the entry of a key has been changed: the map has its other entries, in their order,
and the other cells are as they were. -/
structure ChangesOnly (h h' : Heap) (id : MapId) (key : String) : Prop where
  entries : (h'.map id).entries.filter (·.1 != key) = (h.map id).entries.filter (·.1 != key)
  maps : ∀ id' ≠ id, h'.map id' = h.map id'
  elsewhere : h' = { h with maps := h'.maps }

/-- What changes the entry of a key changes nothing else, and the methods answer with the value that
was stored there. -/
structure WritesEntry (h : Heap) (operations : Assoc Operation) (id : MapId) (key : Value)
    (stored : Option Value) : Prop where
  assign : ∀ name v, ∃ h', h.writeIndex name (.map id) key v = (.ok (), h') ∧
    h.ChangesOnly h' id (h.text key)
  put : ∀ v, ∃ h', h.callMethod operations (.map id) "put" [key, v] =
    (some (.ok (stored.getD .null)), h') ∧ h.ChangesOnly h' id (h.text key)
  remove : ∃ h', h.callMethod operations (.map id) "remove" [key] =
    (some (.ok (stored.getD .null)), h') ∧ h.ChangesOnly h' id (h.text key)

/-- What would change the entry of a key waits for the lock of the map, which it holds itself. -/
structure WaitsForItself (h : Heap) (operations : Assoc Operation) (id : MapId) (key : Value) :
    Prop where
  assign : ∀ name v, h.writeIndex name (.map id) key v = (.error .selfLocked, h)
  put : ∀ v, h.callMethod operations (.map id) "put" [key, v] = (some (.error .selfLocked), h)
  remove : h.callMethod operations (.map id) "remove" [key] = (some (.error .selfLocked), h)

/-- A map lists its entries and answers for them. -/
structure Dictionary (h : Heap) (operations : Assoc Operation) (id : MapId) : Prop where
  distinct : (h.map id).keys.Nodup
  entries : ∀ key v, (key, v) ∈ (h.map id).entries ↔ (h.map id).get? key = some v
  keySet : ∀ name ∈ ["keySet", "keys"], ∃ listed h',
    h.callMethod operations (.map id) name [] = (some (.ok (.list listed)), h') ∧
    h'.list listed = ((h.map id).keys.map Value.str).toArray
  values : ∃ listed h',
    h.callMethod operations (.map id) "values" [] = (some (.ok (.list listed)), h') ∧
    h'.list listed = (h.map id).values.toArray
  display : h.text (.map id) = "\x7b" ++
    ", ".intercalate ((h.map id).entries.map fun e => e.1 ++ "=" ++ h.inside e.2) ++ "\x7d"
  /-- The text of a value inside the map is the text of the value: of a number, and of any value if
  the map holds itself nowhere. -/
  inside : ∀ e ∈ (h.map id).entries, e.2.isNumber = true ∨ (∃ n, h.Plain n (.map id)) →
    h.inside e.2 = h.text e.2
  /-- A loop walks over records of the entries. -/
  walk : ∃ (walk : Walk) (records : List MapId),
    Walk.ofValue (.map id) h = (walk, h.withEntries (.map id)) ∧
    walk.Gives records.length (records.map Value.map) ∧
    records.map (h.withEntries (.map id)).map = (h.map id).entries.map entryRecord
  reads : ∀ key, h.ReadsEntry operations id key ((h.map id).get? (h.text key))
  writes : ∀ key, ¬ h.Holds id key → h.WritesEntry operations id key ((h.map id).get? (h.text key))
  waits : ∀ key, h.Holds id key → h.WaitsForItself operations id key

/-! ### Listing -/

/-- The depth matters only for lists and maps. -/
theorem textTo_of_flat (h : Heap) {v : Value} (hlist : ∀ id, v ≠ .list id)
    (hmap : ∀ id, v ≠ .map id) (k k' : Nat) : h.textTo k v = h.textTo k' v := by
  cases v with
  | list id => exact absurd rfl (hlist id)
  | map id => exact absurd rfl (hmap id)
  | _ => cases k <;> cases k' <;> rfl

/-- A value is written in full down to the depth to which it is nested. -/
theorem textTo_of_plain {h : Heap} {n k : Nat} {v : Value} (hv : h.Plain n v) (hk : n ≤ k) :
    h.textTo k v = h.textTo n v := by
  -- A list or map takes one level off the depth, and so do the bounds of its values.
  induction hv generalizing k with
  | leaf hleaf =>
    refine h.textTo_of_flat ?_ ?_ _ _ <;>
      · rintro id rfl
        cases hleaf
  | range r => exact h.textTo_of_flat (fun _ => Value.noConfusion) (fun _ => Value.noConfusion) _ _
  | list _ ih =>
    obtain ⟨k, rfl⟩ := Nat.exists_eq_add_of_lt hk
    rw [textTo, textTo]
    congr 3
    exact List.map_congr_left fun v hv => ih v hv (Nat.le_add_right ..)
  | map _ ih =>
    obtain ⟨k, rfl⟩ := Nat.exists_eq_add_of_lt hk
    rw [textTo, textTo]
    congr 3
    exact List.map_congr_left fun e he => by rw [ih e he (Nat.le_add_right ..)]

/-- A value that is a number, or in a plain map, is written inside of the map as it is by itself. -/
theorem inside_eq_text {h : Heap} {id : MapId} {e : String × Value} (he : e ∈ (h.map id).entries)
    (hv : e.2.isNumber = true ∨ ∃ n, h.Plain n (.map id)) : h.inside e.2 = h.text e.2 := by
  rcases hv with hnumber | ⟨n, hplain⟩
  · refine h.textTo_of_flat ?_ ?_ _ _ <;>
      · rintro id heq
        rw [heq] at hnumber
        cases hnumber
  · cases hplain.depth with
    | leaf hleaf => cases hleaf
    | map hvalues => exact (textTo_of_plain (hvalues e he) (Nat.le_succ _)).symm

theorem list_newList (h : Heap) (items : Array Value) :
    (h.newList items).2.list ⟨h.lists.size⟩ = items := by
  simp [newList, list]

/-- A map is walked along its entries, each of which is a record of its own. -/
theorem walk_entries (h : Heap) (id : MapId) :
    ∃ (walk : Walk) (records : List MapId),
      Walk.ofValue (.map id) h = (walk, h.withEntries (.map id)) ∧
      walk.Gives records.length (records.map Value.map) ∧
      records.map (h.withEntries (.map id)).map = (h.map id).entries.map entryRecord := by
  obtain ⟨walk, hwalk, hgives, -⟩ := Walk.ofValue_gives (v := .map id) nofun h
  refine ⟨walk, (List.range (h.map id).size).map fun k => ⟨h.maps.size + k⟩, hwalk, ?_, ?_⟩
  · rw [List.map_map, List.length_map, ← List.length_map (fun k => Value.map ⟨h.maps.size + k⟩)]
    exact hgives
  · refine List.ext_getElem (by simp [Assoc.size]) fun k hk hk' => ?_
    have hrecord := h.map_withEntries id (List.getElem?_eq_getElem hk')
    simpa using hrecord

/-! ### Reading and changing entries -/

/-- All ways to read an entry give what stands under the text of the key. -/
theorem readsEntry (h : Heap) (operations : Assoc Operation) (id : MapId) (key : Value) :
    h.ReadsEntry operations id key ((h.map id).get? (h.text key)) where
  index _ := rfl
  get := rfl
  getOrDefault _ := rfl
  -- a key is contained exactly if it is not missing
  containsKey := by
    have hcontains : ((h.map id).get? (h.text key)).isSome = (h.map id).contains (h.text key) :=
      Bool.eq_iff_iff.2 ((h.map id).isSome_get?_iff _)
    rw [hcontains]
    rfl
  field name hkey _ := by
    subst hkey
    rfl

/-- To write under a key leaves the other keys alone, in their order. -/
theorem filter_write {α : Type} (key : String) (value : α) (l : List (String × α)) :
    (Assoc.write key value l).filter (·.1 != key) = l.filter (·.1 != key) := by
  induction l with
  | nil => simp [Assoc.write]
  | cons e rest ih =>
    obtain ⟨k, v⟩ := e
    rw [Assoc.write]
    split
    · rename_i hk
      simp [hk]
    · rw [List.filter_cons, List.filter_cons, ih]

/-- To set a map whose other entries stay changes one key of one map. -/
theorem changesOnly_setMap (h : Heap) {id : MapId} {entries : Assoc Value} {key : String}
    (hentries : entries.entries.filter (·.1 != key) = (h.map id).entries.filter (·.1 != key)) :
    h.ChangesOnly (h.setMap id entries) id key where
  entries := by
    rw [map_setMap]
    split
    · exact hentries
    · rfl
  maps id' hid' := by
    rw [map_setMap, if_neg]
    rintro ⟨hindex, -⟩
    exact hid' (congrArg MapId.mk hindex)
  elsewhere := rfl

/-- A method that belongs to the kind of a value stands before those that every value has. -/
theorem callMethod_of_own {h h' : Heap} {operations : Assoc Operation} {v : Value} {name : String}
    {args : List Value} {result : Except MethodFault Value}
    (hown : h.ownMethod operations v name args = (some result, h')) :
    h.callMethod operations v name args = (some result, h') := by
  unfold callMethod
  rw [hown]

section

variable (h : Heap) (operations : Assoc Operation) (id : MapId) (key : Value)

/-- An index assignment stores under the text of the key, unless the key would have to be read from
the map itself. -/
theorem writeIndex_map (name : String) (v : Value) :
    h.writeIndex name (.map id) key v =
      if h.textReads key id then (.error .selfLocked, h)
      else (.ok (), h.setMap id ((h.map id).insert (h.text key) v)) := rfl

/-- `put` writes under the text of the key. -/
theorem callMethod_put (v : Value) :
    h.callMethod operations (.map id) "put" [key, v] =
      if h.textReads key id then (some (.error .selfLocked), h)
      else (some (.ok (((h.map id).get? (h.text key)).getD .null)),
        h.setMap id ((h.map id).insert (h.text key) v)) := by
  split
  · exact callMethod_of_own (if_pos ‹_›)
  · exact callMethod_of_own (if_neg ‹_›)

/-- `remove` removes what is under the text of the key. -/
theorem callMethod_remove :
    h.callMethod operations (.map id) "remove" [key] =
      if h.textReads key id then (some (.error .selfLocked), h)
      else (some (.ok (((h.map id).get? (h.text key)).getD .null)),
        h.setMap id ((h.map id).erase (h.text key))) := by
  split
  · exact callMethod_of_own (if_pos ‹_›)
  · exact callMethod_of_own (if_neg ‹_›)

variable {h id key}

/-- All ways to write an entry do this, if the key does not hold the map. -/
theorem writesEntry (hkey : ¬ h.Holds id key) :
    h.WritesEntry operations id key ((h.map id).get? (h.text key)) where
  assign name v := by
    rw [writeIndex_map, if_neg (mt textReads_iff.1 hkey)]
    exact ⟨_, rfl, h.changesOnly_setMap (filter_write (h.text key) v _)⟩
  put v := by
    rw [callMethod_put, if_neg (mt textReads_iff.1 hkey)]
    exact ⟨_, rfl, h.changesOnly_setMap (filter_write (h.text key) v _)⟩
  remove := by
    rw [callMethod_remove, if_neg (mt textReads_iff.1 hkey)]
    exact ⟨_, rfl, h.changesOnly_setMap (by simp [Assoc.erase])⟩

/-- None of them comes to an end if it does. -/
theorem waitsForItself (hkey : h.Holds id key) : h.WaitsForItself operations id key where
  assign name v := by rw [writeIndex_map, if_pos (textReads_iff.2 hkey)]
  put v := by rw [callMethod_put, if_pos (textReads_iff.2 hkey)]
  remove := by rw [callMethod_remove, if_pos (textReads_iff.2 hkey)]

end

/-- **Every map is a dictionary.** -/
theorem dictionary (h : Heap) (operations : Assoc Operation) (id : MapId) :
    h.Dictionary operations id where
  distinct := (h.map id).nodup
  entries _ _ := Assoc.mem_entries_iff
  keySet name hname := by
    rcases List.mem_pair.1 hname with rfl | rfl <;> exact ⟨_, _, rfl, h.list_newList _⟩
  values := ⟨_, _, rfl, h.list_newList _⟩
  display := rfl
  inside _ := inside_eq_text
  walk := h.walk_entries id
  reads := h.readsEntry operations id
  writes _ := writesEntry operations
  waits _ := waitsForItself operations

/-! ### Changes -/

/-- Changes of a map, under whatever names, with the keys under which they are made: the texts of
the values that are given as keys, at the time of the change. In between, the heap may become any
heap in which the map is as it was. -/
inductive Changes (operations : Assoc Operation) (id : MapId) (start : Heap) :
    List MapChange → Heap → Prop
  | start : Changes operations id start [] start
  | assign {changes : List MapChange} {h h' : Heap} (name : String) (key v : Value) :
      Changes operations id start changes h → h.writeIndex name (.map id) key v = (.ok (), h') →
      Changes operations id start (changes ++ [.write (h.text key) v]) h'
  | put {changes : List MapChange} {h h' : Heap} (key v answer : Value) :
      Changes operations id start changes h →
      h.callMethod operations (.map id) "put" [key, v] = (some (.ok answer), h') →
      Changes operations id start (changes ++ [.write (h.text key) v]) h'
  | remove {changes : List MapChange} {h h' : Heap} (key answer : Value) :
      Changes operations id start changes h →
      h.callMethod operations (.map id) "remove" [key] = (some (.ok answer), h') →
      Changes operations id start (changes ++ [.remove (h.text key)]) h'
  | other {changes : List MapChange} {h h' : Heap} :
      Changes operations id start changes h → h'.map id = h.map id →
      h.maps.size ≤ h'.maps.size → Changes operations id start changes h'

/-- A map of the heap is what its history says it is. -/
structure Keeps (h : Heap) (id : MapId) (history : List MapChange) : Prop where
  there : id.index < h.maps.size
  records : (h.map id).Records history

/-- **A change** is remembered. -/
theorem Keeps.change {h : Heap} {id : MapId} {history : List MapChange} (hk : h.Keeps id history)
    (change : MapChange) :
    (h.setMap id (change.apply (h.map id))).Keeps id (history ++ [change]) where
  there := Nat.lt_of_lt_of_eq hk.there Array.size_setIfInBounds.symm
  records := by
    rw [map_setMap, if_pos ⟨rfl, hk.there⟩]
    exact hk.records.step change

/-- **A run of changes** is remembered. -/
theorem Keeps.run {operations : Assoc Operation} {id : MapId} {start h : Heap}
    {history changes : List MapChange} (hk : start.Keeps id history)
    (hrun : start.Changes operations id changes h) : h.Keeps id (history ++ changes) := by
  induction hrun with
  | start => rwa [List.append_nil]
  -- A change that succeeds has not waited for itself.
  | @assign changes h h' name key v _ hstep ih =>
    rw [writeIndex_map] at hstep
    split at hstep
    · cases hstep
    · obtain rfl := (Prod.mk.inj hstep).2
      rw [← List.append_assoc]
      exact ih.change (.write (h.text key) v)
  | @put changes h h' key v answer _ hstep ih =>
    rw [callMethod_put] at hstep
    split at hstep
    · cases hstep
    · obtain rfl := (Prod.mk.inj hstep).2
      rw [← List.append_assoc]
      exact ih.change (.write (h.text key) v)
  | @remove changes h h' key answer _ hstep ih =>
    rw [callMethod_remove] at hstep
    split at hstep
    · cases hstep
    · obtain rfl := (Prod.mk.inj hstep).2
      rw [← List.append_assoc]
      exact ih.change (.remove (h.text key))
  -- What leaves the map alone is no part of its history.
  | other _ hmap hsize ih => exact ⟨Nat.lt_of_lt_of_le ih.there hsize, hmap ▸ ih.records⟩

end Heap

/-! ### Writes that wait for themselves -/

namespace Render

variable {host : Host} {scope : ScopeId} {st : RenderState} {m₁ m₂ : Memory} {id : MapId} {k : Value}

/-- A render blocks where an expression waits for itself. -/
theorem runOn_ofEval_blocked {act : Eval Value} {fault : Fault} {location : Location}
    (hact : act.runOn st.memory = (.error (.template fault location), m₁))
    (hwaits : fault.waits = true) :
    (ofEval act).runOn st = (.error .blocked, { st with memory := m₁ }) := by
  have hstop : Stop.ofError (.template fault location) = .blocked := if_pos hwaits
  change ((act.runOn st.memory).1.mapError Stop.ofError,
    { st with memory := (act.runOn st.memory).2 }) = _
  rw [hact, ← hstop]
  rfl

/-- An index assignment blocks under a key that holds the map. -/
theorem runOn_assignAt_blocked {name : String} {key value : Expr} {w : Value} {location : Location}
    (htarget : st.memory.scopes.get host.objects scope name = .map id)
    (hkey : (key.eval host scope).runOn st.memory = (.ok k, m₁))
    (hvalue : (value.eval host scope).runOn m₁ = (.ok w, m₂)) (hholds : m₂.heap.Holds id k) :
    (ofEval ((Expr.assignAt name key value location).eval host scope)).runOn st =
      (.error .blocked, { st with memory := m₂ }) := by
  have hlookup : (lookup host scope name).runOn st.memory = (.ok (.map id), st.memory) := by
    rw [← htarget]
    rfl
  -- the write is what waits for itself, and target, key and value have been evaluated by then
  have hwrite : (onHeap (·.writeIndex name (.map id) k w)).runOn m₂ =
      (.ok (.error .selfLocked), m₂) := by
    change (Except.ok (m₂.heap.writeIndex name (.map id) k w).1,
      { m₂ with heap := (m₂.heap.writeIndex name (.map id) k w).2 }) = _
    rw [(Heap.waitsForItself host.operations hholds).assign name w]
  have hwhole : ((Expr.assignAt name key value location).eval host scope).runOn st.memory =
      (.error (.template .selfLocked location), m₂) := by
    rw [Expr.eval, Eval.runOn_bind, hlookup]
    dsimp only
    rw [Eval.runOn_bind, hkey]
    dsimp only
    rw [Eval.runOn_bind, hvalue]
    dsimp only
    rw [Eval.runOn_bind, hwrite]
    rfl
  exact runOn_ofEval_blocked hwhole rfl

/-- So do `put` and `remove`. -/
theorem runOn_method_blocked {target : Expr} {name : String} {args : List Expr} {vs : List Value}
    {location : Location}
    (htarget : (target.eval host scope).runOn st.memory = (.ok (.map id), m₁))
    (hargs : (Expr.evalAll host scope args).runOn m₁ = (.ok vs, m₂))
    (hname : (name = "put" ∧ ∃ v, vs = [k, v]) ∨ (name = "remove" ∧ vs = [k]))
    (hholds : m₂.heap.Holds id k) :
    (ofEval ((Expr.method target name args location).eval host scope)).runOn st =
      (.error .blocked, { st with memory := m₂ }) := by
  have hwaits := Heap.waitsForItself host.operations hholds
  have hmethod : m₂.heap.callMethod host.operations (.map id) name vs =
      (some (.error .selfLocked), m₂.heap) := by
    -- both methods read their key while they hold the map
    rcases hname with ⟨rfl, v, rfl⟩ | ⟨rfl, rfl⟩
    · exact hwaits.put v
    · exact hwaits.remove
  have hcall : (onHeap (·.callMethod host.operations (.map id) name vs)).runOn m₂ =
      (.ok (some (.error .selfLocked)), m₂) := by
    change (Except.ok (m₂.heap.callMethod host.operations (.map id) name vs).1,
      { m₂ with heap := (m₂.heap.callMethod host.operations (.map id) name vs).2 }) = _
    rw [hmethod]
  have hwhole : ((Expr.method target name args location).eval host scope).runOn st.memory =
      (.error (.template (.callFailed ("map." ++ name) .selfLocked) location), m₂) := by
    rw [Expr.eval, Eval.runOn_bind, htarget]
    change ((Expr.evalAll host scope args >>= fun vs =>
      host.callMethod (.map id) name vs location).runOn m₁) = _
    rw [Eval.runOn_bind, hargs]
    dsimp only
    rw [Host.callMethod, Eval.runOn_bind, hcall]
    rfl
  exact runOn_ofEval_blocked hwhole rfl

end Render

/-! ### Literals -/

variable {host : Host} {scope : ScopeId} {m m' : Memory}

/-- The map of a literal is new, and holds the values of the literal under its keys. -/
theorem eval_map_eq_ok {keys : List String} {values : List Expr} {v : Value}
    (heval : ((Expr.map keys values).eval host scope).runOn m = (.ok v, m')) :
    ∃ vs before, (Expr.evalAll host scope values).runOn m = (.ok vs, before) ∧
      v = .map ⟨before.heap.maps.size⟩ ∧
      m' = { before with heap := (before.heap.newMap (.ofList (keys.zip vs))).2 } := by
  rw [Expr.eval, runOn_bind] at heval
  rcases hvalues : (Expr.evalAll host scope values).runOn m with ⟨error | vs, before⟩
  · rw [hvalues] at heval
    cases heval
  · rw [hvalues] at heval
    obtain ⟨hv, rfl⟩ := Prod.mk.inj heval
    exact ⟨vs, before, rfl, (Except.ok.inj hv).symm, rfl⟩

/-- A new map has the entries of its literal, written one after the other. -/
theorem Heap.keeps_newMap (h : Heap) (pairs : List (String × Value)) :
    (h.newMap (.ofList pairs)).2.Keeps ⟨h.maps.size⟩ (pairs.map fun e => .write e.1 e.2) where
  there := by simp [newMap]
  records := by
    rw [map_newMap, if_pos rfl]
    exact Assoc.records_ofList pairs

/-! ### Constant keys -/

/-- The value of a token that is a constant. -/
def Lexeme.constant? : Lexeme → Option Value
  | .text content => some (.str content)
  | .keyword k => some k.value
  | .number _ v => some v
  | .name _ | .punct _ => none

/-- **The key that a constant spells** is the text that the constant has as an index. -/
theorem Lexeme.mapKey?_of_constant? {lexeme : Lexeme} {c : Value}
    (hc : lexeme.constant? = some c)
    (hnumber : ∀ spelling v, lexeme = .number spelling v → v.isNumber = true) (h : Heap) :
    Parse.mapKey? lexeme = some (h.text c) := by
  -- a text is its own key, a keyword has a word for it, and an integer is written in decimals
  cases lexeme with
  | text content =>
    obtain rfl := Option.some.inj hc
    rfl
  | keyword k =>
    obtain rfl := Option.some.inj hc
    cases k <;> rfl
  | number spelling v =>
    obtain rfl := Option.some.inj hc
    have hv := hnumber spelling v rfl
    cases v <;> first | rfl | cases hv
  | name | punct => cases hc

/-- Tokens are scanned one by one. -/
theorem exists_scanLexeme_of_mem {row last : Nat} {text : List Char} {ts : List Token}
    (h : scanTokens row text = .ok (ts, last)) {t : Token} (ht : t ∈ ts) :
    ∃ c cs rest rows, scanLexeme c cs = .ok (t.lexeme, rest, rows) := by
  fun_induction scanTokens row text generalizing ts last with
  | case1 =>
    -- an empty text has no tokens
    obtain ⟨rfl, -⟩ := Prod.mk.inj (Except.ok.inj h)
    cases ht
  | case2 | case3 => cases h
  | case4 row text start c cs hrest lexeme rest rows hlexeme =>
    rename_i tokens htokens ih
    obtain ⟨rfl, -⟩ := Prod.mk.inj (Except.ok.inj h)
    -- the first token, or one of those behind it
    rcases List.mem_cons.1 ht with rfl | ht
    · exact ⟨c, cs, rest, rows, hlexeme⟩
    · exact ih htokens ht

/-- The key that a constant of a text spells in a literal is the text that it has as an index. -/
theorem mapKey?_of_scanTokens {row last : Nat} {text : List Char} {ts : List Token}
    (h : scanTokens row text = .ok (ts, last)) {t : Token} (ht : t ∈ ts) {c : Value}
    (hc : t.lexeme.constant? = some c) (heap : Heap) :
    Parse.mapKey? t.lexeme = some (heap.text c) := by
  obtain ⟨_, _, _, _, hlexeme⟩ := exists_scanLexeme_of_mem h ht
  refine Lexeme.mapKey?_of_constant? hc (fun spelling v hnumber => ?_) heap
  rw [hnumber] at hlexeme
  exact scanLexeme_isNumber hlexeme

/-- A constant as an expression. -/
theorem Lexeme.spells_of_constant? {lexeme : Lexeme} {c : Value} (hc : lexeme.constant? = some c)
    (file : Option String) (r : Nat) : Spells file (.expr .primary (.const c)) [⟨lexeme, r⟩] := by
  cases lexeme with
  | text content =>
    obtain rfl := Option.some.inj hc
    exact .text content r
  | keyword k =>
    obtain rfl := Option.some.inj hc
    exact .keyword k r
  | number spelling v =>
    obtain rfl := Option.some.inj hc
    exact .number spelling v r
  | name | punct => cases hc

/-- A literal that is indexed with its key is evaluated like the value of the entry. -/
theorem eval_index_map {e : Expr} {key : String} {c : Value} (location : Location)
    (hkey : ∀ h : Heap, h.text c = key) {result : Except Error Value}
    (heval : (e.eval host scope).runOn m = (result, m')) :
    ∃ h', ((Expr.index (.map [key] [e]) (.const c) location).eval host scope).runOn m =
      (result, { m' with heap := h' }) := by
  cases result with
  | error error =>
    -- The value fails, so there is no map to index.
    have hvalues : (Expr.evalAll host scope [e]).runOn m = (.error error, m') := by
      rw [Expr.evalAll, runOn_bind, heval]
    have hmap : ((Expr.map [key] [e]).eval host scope).runOn m = (.error error, m') := by
      rw [Expr.eval, runOn_bind, hvalues]
    rw [Expr.eval, runOn_bind, hmap]
    exact ⟨m'.heap, rfl⟩
  | ok v =>
    have hvalues : (Expr.evalAll host scope [e]).runOn m = (.ok [v], m') := by
      rw [Expr.evalAll, runOn_bind, heval]
      rfl
    have hmap : ((Expr.map [key] [e]).eval host scope).runOn m =
        (.ok (.map ⟨m'.heap.maps.size⟩),
          { m' with heap := (m'.heap.newMap (.ofList [(key, v)])).2 }) := by
      rw [Expr.eval, runOn_bind, hvalues]
      rfl
    have hread (nullSafe : Bool) : (m'.heap.newMap (.ofList [(key, v)])).2.readIndex nullSafe
        (.map ⟨m'.heap.maps.size⟩) c = .ok v := by
      rw [Heap.readIndex, Heap.map_newMap, if_pos rfl, hkey]
      simp [Assoc.ofList, Assoc.insertAll, Assoc.get?_insert]
    refine ⟨(m'.heap.newMap (.ofList [(key, v)])).2, ?_⟩
    rw [Expr.eval, runOn_bind, hmap]
    dsimp only
    rw [Expr.eval]
    change (ofExcept location ((m'.heap.newMap (.ofList [(key, v)])).2.readIndex m'.control.nullSafe
      (.map ⟨m'.heap.maps.size⟩) c)).runOn _ = _
    rw [hread]
    rfl

/-- The tokens `{key: value}[index]` of a literal with one entry that is indexed. -/
inductive IndexesLiteral (file : Option String) (key index : Lexeme) (value : Expr) :
    List Token → Prop
  | mk {us : List Token} (r₁ r₂ r₃ r₄ r₅ r₆ r₇ : Nat) :
      Spells file (.expr .assignment value) us →
      IndexesLiteral file key index value
        (⟨.punct .lbrace, r₁⟩ :: ⟨key, r₂⟩ :: ⟨.punct .colon, r₃⟩ :: (us ++
          [⟨.punct .rbrace, r₄⟩, ⟨.punct .lbracket, r₅⟩, ⟨index, r₆⟩, ⟨.punct .rbracket, r₇⟩]))

/-- The key of such a literal is one of its tokens. -/
theorem IndexesLiteral.key_mem {file : Option String} {key index : Lexeme} {value : Expr}
    {ts : List Token} (h : IndexesLiteral file key index value ts) :
    ∃ t ∈ ts, t.lexeme = key := by
  obtain ⟨r₁, r₂, r₃, r₄, r₅, r₆, r₇, -⟩ := h
  exact ⟨⟨key, r₂⟩, by simp, rfl⟩

/-- A literal that is indexed with the constant that is its key. -/
theorem IndexesLiteral.spells {file : Option String} {key index : Lexeme} {value : Expr} {c : Value}
    {word : String} {ts : List Token} (h : IndexesLiteral file key index value ts)
    (hkey : Parse.mapKey? key = some word) (hindex : index.constant? = some c) :
    ∃ location, Spells file (.expr .member (.index (.map [word] [value]) (.const c) location))
      ts := by
  obtain ⟨r₁, r₂, r₃, r₄, r₅, r₆, r₇, hvalue⟩ := h
  have hproper : Level.primary.Proper := trivial
  have hmap : Spells file (.expr .member (.map [word] [value])) _ :=
    .loosen (.map r₁ r₄ (.entry r₂ r₃ hkey hvalue))
  have hconst : Spells file (.expr .assignment (.const c)) [⟨index, r₆⟩] :=
    (index.spells_of_constant? hindex file r₆).loosen_to hproper trivial (Nat.zero_le _)
  have hwhole := Spells.index r₅ r₇ hmap hconst
  refine ⟨⟨file, r₅⟩, ?_⟩
  simpa using hwhole

/-- **Maps are dictionaries** in the order of insertion, and their keys are texts.

The map of a literal, after any run of changes, holds what the history of the literal and the
changes says, and answers accordingly. It answers for every key, and can be changed under every key
but those that are the map or hold it: there the change waits for itself, and a render that gets to
it goes no further. A constant has the same text as the key of a literal and as an index, so a
literal of one entry that is indexed with its key is the value of this entry. -/
theorem map_keeps_entries (host : Host) (scope : ScopeId) :
    (∀ keys values m v m', ((Expr.map keys values).eval host scope).runOn m = (.ok v, m') →
      ∃ id vs before, v = .map id ∧
        (Expr.evalAll host scope values).runOn m = (.ok vs, before) ∧
        ∀ changes h, m'.heap.Changes host.operations id changes h →
          (h.map id).Records ((keys.zip vs).map (fun e => .write e.1 e.2) ++ changes) ∧
          h.Dictionary host.operations id) ∧
    (∀ file row last text ts, scanTokens row text.toList = .ok (ts, last) →
      (∀ t ∈ ts, ∀ c, t.lexeme.constant? = some c → ∀ h : Heap,
        Parse.mapKey? t.lexeme = some (h.text c)) ∧
      ∀ key index value c, IndexesLiteral file key index value ts →
        key.constant? = some c → index.constant? = some c →
        ∃ e, parseExprs file row text = .ok [e] ∧
          ∀ m result m', (value.eval host scope).runOn m = (result, m') →
            ∃ h', (e.eval host scope).runOn m = (result, { m' with heap := h' })) ∧
    (∀ st id k m₁ m₂, m₂.heap.Holds id k →
      (∀ name key value location w, st.memory.scopes.get host.objects scope name = .map id →
        (key.eval host scope).runOn st.memory = (.ok k, m₁) →
        (value.eval host scope).runOn m₁ = (.ok w, m₂) →
        (Render.ofEval ((Expr.assignAt name key value location).eval host scope)).runOn st =
          (.error .blocked, { st with memory := m₂ })) ∧
      ∀ target name args location vs,
        (target.eval host scope).runOn st.memory = (.ok (.map id), m₁) →
        (Expr.evalAll host scope args).runOn m₁ = (.ok vs, m₂) →
        (name = "put" ∧ ∃ v, vs = [k, v]) ∨ (name = "remove" ∧ vs = [k]) →
        (Render.ofEval ((Expr.method target name args location).eval host scope)).runOn st =
          (.error .blocked, { st with memory := m₂ })) := by
  refine ⟨?_, ?_, fun st id k m₁ m₂ hholds => ⟨?_, ?_⟩⟩
  · intro keys values m v m' heval
    obtain ⟨vs, before, hvalues, rfl, rfl⟩ := eval_map_eq_ok heval
    refine ⟨_, vs, before, rfl, hvalues, fun changes h hrun => ⟨?_, h.dictionary _ _⟩⟩
    exact ((before.heap.keeps_newMap (keys.zip vs)).run hrun).records
  · intro file row last text ts hscan
    refine ⟨fun t ht c hc h => mapKey?_of_scanTokens hscan ht hc h, ?_⟩
    intro key index value c htokens hkey hindex
    obtain ⟨t, ht, rfl⟩ := htokens.key_mem
    -- the key is read off the token, whatever is in the heap
    have hword (h : Heap) : Parse.mapKey? t.lexeme = some (h.text c) :=
      mapKey?_of_scanTokens hscan ht hkey h
    obtain ⟨location, hspells⟩ := htokens.spells (hword {}) hindex
    refine ⟨_, parseExprs_of_spells_at (show Level.member.Proper from trivial) hscan hspells, ?_⟩
    intro m result m' heval
    refine eval_index_map location (fun h => ?_) heval
    exact Option.some.inj ((hword h).symm.trans (hword {}))
  · intro name key value location w htarget hkey hvalue
    exact Render.runOn_assignAt_blocked htarget hkey hvalue hholds
  · intro target name args location vs htarget hargs hname
    exact Render.runOn_method_blocked htarget hargs hname hholds

/-- The literal `{b: 1, a: 2, b: 3}` with a repeated key, behind writes under `1` and `1L`, a
removal and a write of what was removed: the two numbers are one key, and what was removed is at the
end. -/
theorem map_keeps_entries_mixed :
    let changes : List MapChange :=
      [.write "1" (.int 4), .write "1" (.int 6), .remove "b", .write "b" (.int 5)]
    let values : List Expr := [.const (.int 1), .const (.int 2), .const (.int 3)]
    ∃ (v : Value) (m : Memory) (h : Heap),
      ((Expr.map ["b", "a", "b"] values).eval {} 0).runOn ⟨{}, .ofData .empty, {}⟩ = (.ok v, m) ∧
      m.heap.Changes .empty ⟨0⟩ changes h ∧
      (h.map ⟨0⟩).Records
        ([.write "b" (.int 1), .write "a" (.int 2), .write "b" (.int 3)] ++ changes) ∧
      (h.map ⟨0⟩).entries = [("a", .int 2), ("1", .int 6), ("b", .int 5)] := by
  intro changes values
  let m : Memory := ⟨{ maps := #[.ofList [("b", .int 1), ("a", .int 2), ("b", .int 3)]] },
    .ofData .empty, {}⟩
  have heval : ((Expr.map ["b", "a", "b"] values).eval {} 0).runOn ⟨{}, .ofData .empty, {}⟩ =
      (.ok (.map ⟨0⟩), m) := by
    simp only [values, m]
    cbv
  -- an int and a long of one value have one text, so they are one key
  have hone : Decimal.ofInt 1 = "1" := by decide +kernel
  have hint (h : Heap) : h.text (.int 1) = "1" := hone
  have hlong (h : Heap) : h.text (.long 1) = "1" := hone
  -- The heaps behind the changes, one after the other.
  let first := m.heap.setMap ⟨0⟩ ((m.heap.map ⟨0⟩).insert "1" (.int 4))
  let second := first.setMap ⟨0⟩ ((first.map ⟨0⟩).insert "1" (.int 6))
  let third := second.setMap ⟨0⟩ ((second.map ⟨0⟩).erase "b")
  let last := third.setMap ⟨0⟩ ((third.map ⟨0⟩).insert "b" (.int 5))
  have hfirst : m.heap.Changes .empty ⟨0⟩ [.write "1" (.int 4)] first := by
    have hassign : m.heap.writeIndex "m" (.map ⟨0⟩) (.int 1) (.int 4) = (.ok (), first) := by
      rw [Heap.writeIndex_map, hint]
      rfl
    have hstep := Heap.Changes.assign "m" (.int 1) (.int 4)
      (Heap.Changes.start : m.heap.Changes .empty ⟨0⟩ [] m.heap) hassign
    rwa [hint] at hstep
  have hsecond : m.heap.Changes .empty ⟨0⟩ [.write "1" (.int 4), .write "1" (.int 6)] second := by
    have hput : first.callMethod .empty (.map ⟨0⟩) "put" [.long 1, .int 6] =
        (some (.ok (((first.map ⟨0⟩).get? "1").getD .null)), second) := by
      rw [Heap.callMethod_put, hlong]
      rfl
    have hstep := hfirst.put (.long 1) (.int 6) _ hput
    rwa [hlong] at hstep
  have hlast : m.heap.Changes .empty ⟨0⟩ changes last :=
    (hsecond.remove (.str "b") _ (rfl : _ = (_, third))).put (.str "b") (.int 5) _ rfl
  refine ⟨_, m, last, heval, hlast, ?_, ?_⟩
  · obtain ⟨hliteral, -⟩ := map_keeps_entries {} 0
    obtain ⟨id, vs, before, hid, hvalues, hall⟩ := hliteral _ _ _ _ _ heval
    obtain rfl := Value.map.inj hid
    have hgiven : (Expr.evalAll {} 0 values).runOn ⟨{}, .ofData .empty, {}⟩ =
        (.ok [.int 1, .int 2, .int 3], ⟨{}, .ofData .empty, {}⟩) := by
      simp only [values]
      cbv
    obtain rfl := Except.ok.inj (Prod.mk.inj (hgiven.symm.trans hvalues)).1
    exact (hall changes last hlast).1
  · rfl

/-- No map can be changed under itself, so not every write is one of an entry: `m[m] = 2` is never
carried out. -/
theorem not_map_keeps_entries :
    (¬ ∀ (h : Heap) (operations : Assoc Operation) (id : MapId) (key : Value),
      h.WritesEntry operations id key ((h.map id).get? (h.text key))) ∧
    (compile {} {} (.string "#(m[m] = 2)" false) 0).toOption.map (fun r =>
      ((r.1.render {} 8).runOn ⟨⟨{ maps := #[.empty] }, .ofData (.ofList [("m", .map ⟨0⟩)]), {}⟩,
        .unlimited, {}, {}⟩).1) = some (.error .blocked) := by
  constructor
  · intro hall
    let h : Heap := { maps := #[.empty] }
    obtain ⟨h', hassign, -⟩ := (hall h .empty ⟨0⟩ (.map ⟨0⟩)).assign "m" (.int 2)
    have hself : h.Holds ⟨0⟩ (.map ⟨0⟩) := .self
    rw [(Heap.waitsForItself .empty hself).assign] at hassign
    cases hassign
  · decide +kernel

end Stencil
