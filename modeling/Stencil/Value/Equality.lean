import Stencil.Value.Heap

/-!
# Equality of values

Two equalities are in use.

* **Strict** equality keeps the kinds apart: `1` and `1L` differ. Lists are equal if their items
  are, in order; maps if they have equal values under the same keys, in any order. Iterators,
  statuses and objects are equal only to themselves. `#switch` and `equals()` use it.
* **Loose** equality also compares numbers of different widths by value, at the top level only.
  The operators `==` and `!=` and the search methods of collections use it.

A list or a map is equal to itself without a look inside.

Main definitions: `Heap.same`, `Heap.looselySame`.
-/

namespace Stencil.Heap

variable (h : Heap)

/-- Strict equality, in which lists and maps are followed to a given depth. -/
def sameTo : Nat → Value → Value → Bool
  | _, .null, .null => true
  | _, .bool a, .bool b => a == b
  | _, .int a, .int b => a == b
  | _, .long a, .long b => a == b
  | _, .float a, .float b => a == b
  | _, .double a, .double b => a == b
  | _, .str a, .str b => a == b
  | _, .range a, .range b => a == b
  | _, .iter a, .iter b => a == b
  | _, .status a, .status b => a == b
  | _, .object a, .object b => a == b
  | 0, .list a, .list b => a == b
  | 0, .map a, .map b => a == b
  | depth + 1, .list a, .list b =>
    a == b ||
      ((h.list a).size == (h.list b).size &&
        ((h.list a).toList.zip (h.list b).toList).all fun p => sameTo depth p.1 p.2)
  | depth + 1, .map a, .map b =>
    a == b ||
      ((h.map a).size == (h.map b).size &&
        (h.map a).entries.all fun e =>
          match (h.map b).get? e.1 with
          | some v => sameTo depth e.2 v
          | none => false)
  | _, _, _ => false

/-- Strict equality. -/
def same (a b : Value) : Bool := h.sameTo h.depth a b

/-- Loose equality: numbers of all widths are compared by value. -/
def looselySame (a b : Value) : Bool :=
  match a.asLong?, b.asLong? with
  | some x, some y => x == y
  | _, _ =>
    match a.asDouble?, b.asDouble? with
    | some x, some y => x == y
    | _, _ => h.same a b

end Stencil.Heap
