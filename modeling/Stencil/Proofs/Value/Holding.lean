import Mathlib
import Stencil.Value.Text

/-!
# What a text is read from

The text of a value is read from every list and map that the value holds, to the depth that bounds
the nesting of a heap without cycles. This depth is enough in any heap: if a map is reached at all,
then it is reached on a way that passes no cell twice.

Main statement: `Heap.textReads_iff`.
-/

namespace Stencil

namespace Heap

/-- `h.Holds id v`: the value is the map, or holds it in a list or another map. -/
inductive Holds (h : Heap) (id : MapId) : Value → Prop
  | self : Holds h id (.map id)
  | item {items : ListId} {v : Value} : v ∈ h.list items → Holds h id v → Holds h id (.list items)
  | entry {entries : MapId} {e : String × Value} : e ∈ (h.map entries).entries →
      Holds h id e.2 → Holds h id (.map entries)

variable {h : Heap} {id : MapId} {v : Value}

/-- A list is read one level deeper than its items. -/
theorem readsTo_list_iff {k : Nat} {items : ListId} :
    h.readsTo id (k + 1) (.list items) = true ↔ ∃ v ∈ h.list items, h.readsTo id k v = true := by
  rw [readsTo, Array.any_eq_true']

/-- A map is read itself, or one level deeper than its values. -/
theorem readsTo_map_iff {k : Nat} {entries : MapId} :
    h.readsTo id (k + 1) (.map entries) = true ↔
      entries = id ∨ ∃ e ∈ (h.map entries).entries, h.readsTo id k e.2 = true := by
  rw [readsTo, Bool.or_eq_true, beq_iff_eq, List.any_eq_true]

/-- What is read to some depth is held. -/
theorem holds_of_readsTo {k : Nat} (hreads : h.readsTo id k v = true) : h.Holds id v := by
  induction k generalizing v with
  | zero => cases v <;> cases hreads
  | succ k ih =>
    cases v with
    | list items =>
      obtain ⟨w, hw, hreads⟩ := readsTo_list_iff.1 hreads
      exact .item hw (ih hreads)
    | map entries =>
      obtain rfl | ⟨e, he, hreads⟩ := readsTo_map_iff.1 hreads
      · exact .self
      · exact .entry he (ih hreads)
    | _ => cases hreads

/-- What is read to some depth is read one level deeper. -/
theorem readsTo_succ {k : Nat} (hreads : h.readsTo id k v = true) :
    h.readsTo id (k + 1) v = true := by
  induction k generalizing v with
  | zero => cases v <;> cases hreads
  | succ k ih =>
    cases v with
    | list items =>
      obtain ⟨w, hw, hreads⟩ := readsTo_list_iff.1 hreads
      exact readsTo_list_iff.2 ⟨w, hw, ih hreads⟩
    | map entries =>
      refine readsTo_map_iff.2 ((readsTo_map_iff.1 hreads).imp_right ?_)
      rintro ⟨e, he, hreads⟩
      exact ⟨e, he, ih hreads⟩
    | _ => cases hreads

/-- What is held is read to some depth. -/
theorem Holds.exists_readsTo (hv : h.Holds id v) : ∃ k, h.readsTo id k v = true := by
  induction hv with
  | self => exact ⟨1, readsTo_map_iff.2 (.inl rfl)⟩
  | item hw _ ih =>
    obtain ⟨k, hk⟩ := ih
    exact ⟨k + 1, readsTo_list_iff.2 ⟨_, hw, hk⟩⟩
  | entry he _ ih =>
    obtain ⟨k, hk⟩ := ih
    exact ⟨k + 1, readsTo_map_iff.2 (.inr ⟨_, he, hk⟩)⟩

/-! ### The depth that is enough -/

/-- The map and the cells of a heap, as values. -/
def cell (h : Heap) (id : MapId) : Unit ⊕ Fin h.lists.size ⊕ Fin h.maps.size → Value
  | .inl () => .map id
  | .inr (.inl i) => .list ⟨i⟩
  | .inr (.inr i) => .map ⟨i⟩

/-- A map is read from no value but cells. -/
theorem exists_cell (hv : h.Holds id v) : ∃ c, h.cell id c = v := by
  cases hv with
  | self => exact ⟨.inl (), rfl⟩
  | @item items w hw =>
    -- there is an item, so the list is a cell of the heap
    have hsize : items.index < h.lists.size := by
      by_contra hsize
      rw [list, Array.getD_eq_getD_getElem?, Array.getElem?_eq_none (Nat.le_of_not_lt hsize)] at hw
      simp at hw
    exact ⟨.inr (.inl ⟨items.index, hsize⟩), rfl⟩
  | @entry entries e he =>
    -- there is an entry, so the map is a cell of the heap
    have hsize : entries.index < h.maps.size := by
      by_contra hsize
      rw [map, Array.getD_eq_getD_getElem?, Array.getElem?_eq_none (Nat.le_of_not_lt hsize)] at he
      simp [Assoc.empty] at he
    exact ⟨.inr (.inr ⟨entries.index, hsize⟩), rfl⟩

/-- The cells that a map is read from to a depth. -/
def readingCells (h : Heap) (id : MapId) (k : Nat) :
    Finset (Unit ⊕ Fin h.lists.size ⊕ Fin h.maps.size) :=
  Finset.univ.filter fun c => h.readsTo id k (h.cell id c) = true

theorem readingCells_mono (h : Heap) (id : MapId) : Monotone (h.readingCells id) :=
  monotone_nat_of_le_succ fun _ c hc =>
    Finset.mem_filter.2 ⟨Finset.mem_univ c, readsTo_succ (Finset.mem_filter.1 hc).2⟩

/-- Cells decide for all values. -/
theorem readsTo_of_readingCells {k k' : Nat} (hcells : h.readingCells id k = h.readingCells id k')
    (hreads : h.readsTo id k v = true) : h.readsTo id k' v = true := by
  obtain ⟨c, rfl⟩ := exists_cell (holds_of_readsTo hreads)
  have hc : c ∈ h.readingCells id k := Finset.mem_filter.2 ⟨Finset.mem_univ c, hreads⟩
  rw [hcells] at hc
  exact (Finset.mem_filter.1 hc).2

/-- If one more level adds no cell, then neither does the next one. -/
theorem readingCells_stable {k : Nat} (hcells : h.readingCells id k = h.readingCells id (k + 1)) :
    h.readingCells id (k + 1) = h.readingCells id (k + 2) := by
  refine (readingCells_mono h id (Nat.le_succ _)).antisymm fun c hc => ?_
  have hback {w : Value} (hw : h.readsTo id (k + 1) w = true) : h.readsTo id k w = true :=
    readsTo_of_readingCells hcells.symm hw
  refine Finset.mem_filter.2 ⟨Finset.mem_univ c, ?_⟩
  replace hc := (Finset.mem_filter.1 hc).2
  -- what a cell holds is read two levels deep, and so one level deep
  cases hv : h.cell id c with
  | list items =>
    rw [hv] at hc
    obtain ⟨w, hw, hreads⟩ := readsTo_list_iff.1 hc
    exact readsTo_list_iff.2 ⟨w, hw, hback hreads⟩
  | map entries =>
    rw [hv] at hc
    refine readsTo_map_iff.2 ((readsTo_map_iff.1 hc).imp_right ?_)
    rintro ⟨e, he, hreads⟩
    exact ⟨e, he, hback hreads⟩
  | _ =>
    rw [hv] at hc
    cases hc

/-- Nothing is read below the depth of a heap that is not read above it. -/
theorem readingCells_eq_of_depth_le {k : Nat} (hk : h.depth ≤ k) :
    h.readingCells id k = h.readingCells id h.depth := by
  -- there are no more cells than the depth says
  have hcard (m : Nat) : (h.readingCells id m).card ≤ h.depth := by
    refine (Finset.card_le_univ _).trans (le_of_eq ?_)
    simp only [Fintype.card_sum, Fintype.card_unit, Fintype.card_fin, depth]
    omega
  -- a number of cells that comes twice is the last one
  have hstable (m : Nat) (hm : (h.readingCells id m).card = (h.readingCells id (m + 1)).card) :
      (h.readingCells id (m + 1)).card = (h.readingCells id (m + 2)).card := by
    have hcells := Finset.eq_of_subset_of_card_le
      (readingCells_mono h id (Nat.le_succ m)) (le_of_eq hm.symm)
    rw [readingCells_stable hcells]
  have heq := Nat.stabilises_of_monotone
    (fun m m' hm => Finset.card_le_card (readingCells_mono h id hm)) hcard hstable hk
  exact (Finset.eq_of_subset_of_card_le (readingCells_mono h id hk) (le_of_eq heq)).symm

/-- **The text of a value is read from a map** if and only if the value is the map or holds it. -/
theorem textReads_iff : h.textReads v id = true ↔ h.Holds id v := by
  refine ⟨holds_of_readsTo, fun hv => ?_⟩
  obtain ⟨k, hk⟩ := hv.exists_readsTo
  -- the way may be shorter than the depth, or longer, where no cell is new
  rcases Nat.le_total k h.depth with hle | hle
  · exact monotone_nat_of_le_succ (f := fun k => h.readsTo id k v = true)
      (fun _ => readsTo_succ) hle hk
  · exact readsTo_of_readingCells (readingCells_eq_of_depth_le hle) hk

end Heap

end Stencil
