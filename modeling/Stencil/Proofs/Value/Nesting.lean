import Mathlib.Data.Fintype.EquivFin
import Stencil.Value.Heap

/-!
# How deep values are nested

A value without floats that holds itself nowhere is nested to some depth (`Heap.Plain`), and the
depth that its heap bounds is enough (`Heap.Plain.depth`): a value that is nested exactly `n + 2`
deep holds one that is nested exactly `n + 1` deep, and so on down to the leaves. These values are
lists and maps of the heap, and no two of them are the same, since they are not equally deep. So
there are at most as many as the heap has lists and maps.

Everything that is computed of a value down to `Heap.depth`, its document and its text, is thereby
computed down to its leaves.

Main definition: `Heap.Plain`. Main statement: `Heap.Plain.depth`.
-/

namespace Stencil

/-- Whether a value is no float and has no items or entries. -/
def Value.isLeaf : Value → Bool
  | .null | .bool _ | .int _ | .long _ | .str _ | .iter _ | .status _ | .object _ => true
  | _ => false

/-- A value without floats in which lists, maps and ranges are nested at most `n` deep. -/
inductive Heap.Plain (h : Heap) : Nat → Value → Prop
  | leaf {n : Nat} {v : Value} (hleaf : v.isLeaf = true) : h.Plain n v
  | range {n : Nat} (r : IntRange) : h.Plain (n + 1) (.range r)
  | list {n : Nat} {id : ListId} (hitems : ∀ v ∈ (h.list id).toList, h.Plain n v) :
      h.Plain (n + 1) (.list id)
  | map {n : Nat} {id : MapId} (hvalues : ∀ e ∈ (h.map id).entries, h.Plain n e.2) :
      h.Plain (n + 1) (.map id)

namespace Heap.Plain

variable {h : Heap} {n m : Nat} {v w : Value}

/-- What is nested at most `n` deep is nested no deeper than any greater bound. -/
theorem mono (hv : h.Plain n v) (hle : n ≤ m) : h.Plain m v := by
  induction hv generalizing m with
  | leaf hleaf => exact .leaf hleaf
  | range r =>
    obtain ⟨m, rfl⟩ := Nat.exists_eq_add_of_lt hle
    exact .range r
  | list _ ih =>
    obtain ⟨m, rfl⟩ := Nat.exists_eq_add_of_lt hle
    exact .list fun v hv => ih v hv (Nat.le_add_right _ m)
  | map _ ih =>
    obtain ⟨m, rfl⟩ := Nat.exists_eq_add_of_lt hle
    exact .map fun e he => ih e he (Nat.le_add_right _ m)

/-! ### Values of one depth -/

/-- A value that is nested `n` deep and not less. -/
def Exactly (h : Heap) (n : Nat) (v : Value) : Prop := h.Plain (n + 1) v ∧ ¬ h.Plain n v

/-- A value is nested exactly one depth. -/
theorem Exactly.unique (hn : Exactly h n v) (hm : Exactly h m v) : n = m := by
  refine Nat.le_antisymm (Nat.le_of_not_lt fun hlt => ?_) (Nat.le_of_not_lt fun hlt => ?_)
  · exact hn.2 (hm.1.mono hlt)
  · exact hm.2 (hn.1.mono hlt)

/-- A value that holds others holds one that is nested one level less. -/
theorem Exactly.below (hv : Exactly h (n + 1) v) : ∃ w, Exactly h n w := by
  obtain ⟨hdeep, hnot⟩ := hv
  by_contra hnone
  -- Otherwise everything that it holds would be nested less, and so the value itself.
  have hless {w : Value} (hw : h.Plain (n + 1) w) : h.Plain n w := by
    by_contra hn
    exact hnone ⟨w, hw, hn⟩
  apply hnot
  cases hdeep with
  | leaf hleaf => exact .leaf hleaf
  | range r => exact .range r
  | list hitems => exact .list fun w hw => hless (hitems w hw)
  | map hvalues => exact .map fun e he => hless (hvalues e he)

/-- A value holds others of every lesser depth, if it is counted as its own. -/
theorem Exactly.below_all (hv : Exactly h n v) (hle : m ≤ n) : ∃ w, Exactly h m w := by
  induction n, hle using Nat.le_induction generalizing v with
  | base => exact ⟨v, hv⟩
  | succ n _ ih =>
    obtain ⟨w, hw⟩ := hv.below
    exact ih hw

/-! ### The cells of a heap -/

/-- The number of the cell of a list or a map, the lists first. -/
def cell (h : Heap) : Value → Nat
  | .list id => id.index
  | .map id => h.lists.size + id.index
  | _ => 0

/-- A value that holds values which hold something is a cell of the heap, for no other address
gives anything. -/
theorem Exactly.inBounds (hv : Exactly h (n + 1) v) :
    (∃ id : ListId, v = .list id ∧ id.index < h.lists.size) ∨
      (∃ id : MapId, v = .map id ∧ id.index < h.maps.size) := by
  obtain ⟨hdeep, hnot⟩ := hv
  cases hdeep with
  | leaf hleaf => exact absurd (.leaf hleaf) hnot
  | range r => exact absurd (.range r) hnot
  | @list _ id _ =>
    -- an address outside the heap gives an empty list, which would be nested less
    refine .inl ⟨id, rfl, Nat.lt_of_not_le fun hout => hnot (.list fun w hw => ?_)⟩
    have hempty : h.list id = #[] := by simp [Heap.list, Array.getD, Nat.not_lt.2 hout]
    simp [hempty] at hw
  | @map _ id _ =>
    -- and an empty map
    refine .inr ⟨id, rfl, Nat.lt_of_not_le fun hout => hnot (.map fun e he => ?_)⟩
    have hempty : h.map id = .empty := by simp [Heap.map, Array.getD, Nat.not_lt.2 hout]
    simp [hempty, Assoc.empty] at he

/-- There are as many numbers of cells as lists and maps. -/
theorem Exactly.cell_lt (hv : Exactly h (n + 1) v) : cell h v < h.lists.size + h.maps.size := by
  rcases hv.inBounds with ⟨id, rfl, hid⟩ | ⟨id, rfl, hid⟩
  · exact Nat.lt_add_right _ hid
  · exact Nat.add_lt_add_left hid _

/-- Cells of the same number are the same. -/
theorem Exactly.eq_of_cell (hv : Exactly h (n + 1) v) (hw : Exactly h (m + 1) w)
    (heq : cell h v = cell h w) : v = w := by
  rcases hv.inBounds with ⟨⟨i⟩, rfl, hi⟩ | ⟨⟨i⟩, rfl, hi⟩ <;>
    rcases hw.inBounds with ⟨⟨j⟩, rfl, hj⟩ | ⟨⟨j⟩, rfl, hj⟩ <;>
    simp only [cell] at heq hi hj
  -- the numbers of the lists are below those of the maps
  · rw [heq]
  · omega
  · omega
  · rw [Nat.add_left_cancel heq]

/-- No value is nested deeper than there are cells. -/
theorem Exactly.lt_depth (hv : Exactly h n v) : n < h.depth := by
  -- There is a cell for each depth from two up to that of the value.
  have hall : ∀ m : Fin n, ∃ w, Exactly h (m + 1) w := fun m => hv.below_all m.2
  choose value hvalue using hall
  -- different depths have different cells, for a value has one depth only
  have hinjective : Function.Injective fun m => (⟨_, (hvalue m).cell_lt⟩ : Fin _) := by
    intro m m' heq
    have hsame := (hvalue m).eq_of_cell (hvalue m') (Fin.mk.inj heq)
    have hdepth : Exactly h (m' + 1) (value m) := hsame ▸ hvalue m'
    exact Fin.ext (Nat.succ.inj ((hvalue m).unique hdepth))
  have hcard := Fintype.card_le_of_injective _ hinjective
  simp only [Fintype.card_fin] at hcard
  exact Nat.lt_succ_of_le hcard

/-- **The depth of a heap is enough** for every value that is nested to some depth. -/
theorem depth (hv : h.Plain n v) : h.Plain h.depth v := by
  induction n with
  | zero => exact hv.mono (Nat.zero_le _)
  | succ n ih =>
    by_cases hless : h.Plain n v
    · exact ih hless
    · exact hv.mono (Exactly.lt_depth ⟨hv, hless⟩)

end Heap.Plain

end Stencil
