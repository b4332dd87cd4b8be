import Stencil.Assoc
import Stencil.Value.Basic

/-!
# The heap

Lists, maps, one-shot iterators, loop statuses and host objects live in a heap and are named by
their addresses. Cells are only ever added: an address stays valid, and two values of one kind
are the same thing exactly if their addresses are equal.

The heap also keeps the notes that host operations leave behind, in order.

Reading an address that was never given out yields an empty cell, so every operation is total;
`Heap.newList` and its siblings are the only source of addresses.
-/

namespace Stencil

/-- A host object: a text, fields, and operations of the host that it offers under names of its
own. The first entry of a name counts. -/
structure HostObject where
  text : String
  fields : List (String × Value)
  /-- Names of methods with the names of the host operations behind them. -/
  methods : List (String × String)
deriving Inhabited

/-- The cells that values refer to. -/
structure Heap where
  lists : Array (Array Value) := #[]
  maps : Array (Assoc Value) := #[]
  /-- What each iterator has yet to give. -/
  iterators : Array (List Value) := #[]
  statuses : Array LoopStatus := #[]
  objects : Array HostObject := #[]
  /-- What host operations recorded, oldest first. -/
  notes : Array String := #[]
deriving Inhabited

namespace Heap

variable (h : Heap)

/-! ### Reading -/

/-- The items of a list. -/
def list (id : ListId) : Array Value := h.lists.getD id.index #[]

/-- The entries of a map. -/
def map (id : MapId) : Assoc Value := h.maps.getD id.index .empty

/-- The values that an iterator has yet to give. -/
def remaining (id : IterId) : List Value := h.iterators.getD id.index []

/-- The record of a loop status. -/
def status (id : StatusId) : LoopStatus := h.statuses.getD id.index ⟨0, .counting, .null⟩

/-- The record of a host object. -/
def object (id : ObjectId) : HostObject := h.objects.getD id.index default

/-! ### Writing -/

/-- Replaces the items of a list. -/
def setList (id : ListId) (items : Array Value) : Heap :=
  { h with lists := h.lists.setIfInBounds id.index items }

/-- Replaces the entries of a map. -/
def setMap (id : MapId) (entries : Assoc Value) : Heap :=
  { h with maps := h.maps.setIfInBounds id.index entries }

/-- Takes the next value from an iterator. -/
def next? (id : IterId) : Option (Value × Heap) :=
  match h.remaining id with
  | [] => none
  | v :: rest => some (v, { h with iterators := h.iterators.setIfInBounds id.index rest })

/-- Records a note. -/
def note (text : String) : Heap := { h with notes := h.notes.push text }

/-! ### Allocation -/

/-- A new list. -/
def newList (items : Array Value) : Value × Heap :=
  (.list ⟨h.lists.size⟩, { h with lists := h.lists.push items })

/-- A new map. -/
def newMap (entries : Assoc Value) : Value × Heap :=
  (.map ⟨h.maps.size⟩, { h with maps := h.maps.push entries })

/-- A new one-shot iterator. -/
def newIter (values : List Value) : Value × Heap :=
  (.iter ⟨h.iterators.size⟩, { h with iterators := h.iterators.push values })

/-- A new loop status. -/
def newStatus (s : LoopStatus) : Value × Heap :=
  (.status ⟨h.statuses.size⟩, { h with statuses := h.statuses.push s })

/-- A new host object. -/
def newObject (o : HostObject) : Value × Heap :=
  (.object ⟨h.objects.size⟩, { h with objects := h.objects.push o })

/-- A bound on the nesting of lists and maps in a heap without cycles. -/
def depth : Nat := h.lists.size + h.maps.size + 1

/-- Whether a value counts as true: null, false, zero, the empty string, empty collections and
exhausted iterators do not. -/
def isTruthy : Value → Bool
  | .null => false
  | .bool b => b
  | .int i => i != 0
  | .long l => l != 0
  | .float f => f != 0
  | .double d => d != 0
  | .str s => s != ""
  | .list id => !(h.list id).isEmpty
  | .map id => (h.map id).size != 0
  | .iter id => !(h.remaining id).isEmpty
  | .range _ | .status _ | .object _ => true

end Heap

end Stencil
