import Mathlib.Data.List.Forall2
import Stencil.Proofs.Value.Nesting
import Stencil.Proofs.Render.Invariant

/-!
# Equality of values is an equivalence

Values that are nested to some depth are compared down to their leaves (`Heap.sameTo_eq`). So on
these values strict equality satisfies the equations of a comparison without any bound: lists are
equal if their items are, one by one, and maps if they have equal values under each key, or none
(`Heap.strictly_list_iff`, `Heap.strictly_map_iff`). The order of the keys has no part in this, and
that a list or a map is equal to itself without a look inside makes no difference.

By induction on the nesting, strict equality is symmetric and transitive. Loose equality adds that
integers of both widths are equal if they are the same integer, at the top level only. It is still
an equivalence, for a value that is strictly equal to an integer is this integer
(`Heap.loosely_iff`).

Main definitions: `Heap.Strictly`, `Heap.Loosely`, `Assoc.Keywise`, `Heap.PlainValue`.
Main statements: `Heap.strictly_list_iff`, `Heap.strictly_map_iff`, `equality_equivalence`.
-/

namespace Stencil

/-! ### Items and entries -/

/-- Lists that are related item by item are so by any relation that holds between their items. -/
theorem forall₂_mono_of_mem {α : Type} {R S : α → α → Prop} {l l' : List α}
    (h : List.Forall₂ R l l') (himp : ∀ v ∈ l, ∀ w ∈ l', R v w → S v w) : List.Forall₂ S l l' := by
  induction h with
  | nil => exact .nil
  | cons hfirst _ ih =>
    refine .cons (himp _ List.mem_cons_self _ List.mem_cons_self hfirst) (ih ?_)
    intro v hv w hw
    exact himp v (List.mem_cons_of_mem _ hv) w (List.mem_cons_of_mem _ hw)

/-- Two relations that agree on the items of two lists relate these lists alike. -/
theorem forall₂_congr_of_mem {α : Type} {R S : α → α → Prop} {l l' : List α}
    (hiff : ∀ v ∈ l, ∀ w ∈ l', R v w ↔ S v w) : List.Forall₂ R l l' ↔ List.Forall₂ S l l' :=
  ⟨fun h => forall₂_mono_of_mem h fun v hv w hw => (hiff v hv w hw).mp,
    fun h => forall₂_mono_of_mem h fun v hv w hw => (hiff v hv w hw).mpr⟩

/-- Item by item, a relation is transitive if it is on the items of the lists. -/
theorem forall₂_trans_of_mem {α : Type} {R : α → α → Prop} {l l' l'' : List α}
    (h : List.Forall₂ R l l') (h' : List.Forall₂ R l' l'')
    (htrans : ∀ u ∈ l, ∀ v ∈ l', ∀ w, R u v → R v w → R u w) : List.Forall₂ R l l'' := by
  induction h generalizing l'' with
  | nil =>
    cases h'
    exact .nil
  | cons hfirst _ ih =>
    obtain _ | ⟨hsecond, hrest⟩ := h'
    refine .cons (htrans _ List.mem_cons_self _ List.mem_cons_self _ hfirst hsecond) (ih hrest ?_)
    intro u hu v hv
    exact htrans u (List.mem_cons_of_mem _ hu) v (List.mem_cons_of_mem _ hv)

namespace Assoc

variable {α : Type} {R : α → α → Prop} {m m' m'' : Assoc α}

/-- Under each key two maps have related values, or none. -/
def Keywise (R : α → α → Prop) (m m' : Assoc α) : Prop :=
  ∀ key, Option.Rel R (m.get? key) (m'.get? key)

/-- Maps that are related key by key are so by any relation that holds between their values. -/
theorem Keywise.mono_of_mem {S : α → α → Prop} (h : m.Keywise R m')
    (himp : ∀ e ∈ m.entries, ∀ e' ∈ m'.entries, R e.2 e'.2 → S e.2 e'.2) : m.Keywise S m' := by
  intro key
  have hkey := h key
  -- one of the maps has nothing under the key exactly if the other has not
  cases hv : m.get? key <;> cases hw : m'.get? key <;> rw [hv, hw] at hkey <;> cases hkey
  · exact .none
  · rename_i v w hvw
    exact .some (himp (key, v) (mem_entries_of_get? hv) (key, w) (mem_entries_of_get? hw) hvw)

/-- Two relations that agree on the values of two maps relate these maps alike. -/
theorem keywise_congr_of_mem {S : α → α → Prop}
    (hiff : ∀ e ∈ m.entries, ∀ e' ∈ m'.entries, R e.2 e'.2 ↔ S e.2 e'.2) :
    m.Keywise R m' ↔ m.Keywise S m' :=
  ⟨fun h => h.mono_of_mem fun e he e' he' => (hiff e he e' he').mp,
    fun h => h.mono_of_mem fun e he e' he' => (hiff e he e' he').mpr⟩

/-- Maps that are related key by key are related backwards by the relation turned around. -/
theorem Keywise.flip (h : m.Keywise R m') : m'.Keywise (fun w v => R v w) m := by
  intro key
  have hkey := h key
  generalize m.get? key = v at hkey ⊢
  generalize m'.get? key = w at hkey ⊢
  cases hkey with
  | none => exact .none
  | some hvw => exact .some hvw

/-- Key by key, a relation is transitive if it is on the values of the maps. -/
theorem Keywise.trans_of_mem (h : m.Keywise R m') (h' : m'.Keywise R m'')
    (htrans : ∀ e ∈ m.entries, ∀ e' ∈ m'.entries, ∀ w, R e.2 e'.2 → R e'.2 w → R e.2 w) :
    m.Keywise R m'' := by
  intro key
  have hkey := h key
  have hkey' := h' key
  cases hu : m.get? key <;> cases hv : m'.get? key <;> rw [hu, hv] at hkey <;> cases hkey
  -- without a value in the first map there is none in the second, nor in the third
  · rw [hv] at hkey'
    exact hkey'
  · rename_i u v huv
    rw [hv] at hkey'
    generalize m''.get? key = w at hkey' ⊢
    cases hkey' with
    | some hvw =>
      exact .some (htrans (key, u) (mem_entries_of_get? hu) (key, v) (mem_entries_of_get? hv) _
        huv hvw)

/-- A map is related to itself if its values are. -/
theorem Keywise.refl_of_mem (hrefl : ∀ e ∈ m.entries, R e.2 e.2) : m.Keywise R m := by
  intro key
  cases hv : m.get? key with
  | none => exact .none
  | some v => exact .some (hrefl (key, v) (mem_entries_of_get? hv))

/-- The order of the entries has no part in it. -/
theorem Keywise.of_perm (hperm : m.entries.Perm m'.entries) (hrefl : ∀ e ∈ m.entries, R e.2 e.2) :
    m.Keywise R m' := by
  intro key
  have hget : m.get? key = m'.get? key := by
    ext v
    rw [← mem_entries_iff, ← mem_entries_iff, hperm.mem_iff]
  rw [← hget]
  exact Keywise.refl_of_mem hrefl key

/-- Related values under every key, or none: the keys are the same. -/
theorem Keywise.mem_keys_iff (h : m.Keywise R m') (key : String) : key ∈ m.keys ↔ key ∈ m'.keys := by
  rw [← contains_iff_mem_keys, ← contains_iff_mem_keys, ← isSome_get?_iff, ← isSome_get?_iff]
  have hkey := h key
  generalize m.get? key = v at hkey ⊢
  generalize m'.get? key = w at hkey ⊢
  cases hkey <;> rfl

/-- Maps are compared by their sizes, and by what the second has under the keys of the first. -/
theorem keywise_iff {p : α → α → Bool} :
    (m.size == m'.size && m.entries.all fun e => (m'.get? e.1).any (p e.2)) = true ↔
      m.Keywise (fun v w => p v w = true) m' := by
  rw [Bool.and_eq_true, beq_iff_eq, List.all_eq_true]
  constructor
  · rintro ⟨hsize, hall⟩
    have hfound {key : String} {v : α} (hv : m.get? key = some v) :
        ∃ w, m'.get? key = some w ∧ p v w = true := by
      have hentry := hall (key, v) (mem_entries_of_get? hv)
      cases hw : m'.get? key with
      | none => simp [hw] at hentry
      | some w => exact ⟨w, rfl, by simpa [hw] using hentry⟩
    intro key
    cases hv : m.get? key with
    -- a value of the first map has been looked for in the second
    | some v =>
      obtain ⟨w, hw, hvw⟩ := hfound hv
      rw [hw]
      exact .some hvw
    | none =>
      -- There are as many keys in both maps, so the second has no others than the first.
      have hsub : m.keys ⊆ m'.keys := by
        intro k hk
        rw [← contains_iff_mem_keys, ← isSome_get?_iff] at hk ⊢
        obtain ⟨v, hv⟩ := Option.isSome_iff_exists.mp hk
        obtain ⟨w, hw, -⟩ := hfound hv
        rw [hw]
        rfl
      have hlength : m'.keys.length ≤ m.keys.length := by
        rw [keys, keys, List.length_map, List.length_map]
        exact Nat.le_of_eq hsize.symm
      have hperm : m.keys.Perm m'.keys :=
        (List.subperm_of_subset m.nodup hsub).perm_of_length_le hlength
      cases hw : m'.get? key with
      | none => exact .none
      | some w =>
        have hkey : key ∈ m.keys := by
          rw [hperm.mem_iff, ← contains_iff_mem_keys, ← isSome_get?_iff, hw]
          rfl
        rw [← contains_iff_mem_keys, ← isSome_get?_iff, hv] at hkey
        cases hkey
  · intro h
    refine ⟨?_, ?_⟩
    -- the same keys, none of them twice, are equally many
    · have hperm : m.keys.Perm m'.keys :=
        (List.perm_ext_iff_of_nodup m.nodup m'.nodup).mpr h.mem_keys_iff
      have hlength := hperm.length_eq
      rwa [keys, keys, List.length_map, List.length_map] at hlength
    · rintro ⟨key, v⟩ hmem
      have hkey := h key
      rw [mem_entries_iff.mp hmem] at hkey
      cases hw : m'.get? key with
      | none =>
        rw [hw] at hkey
        cases hkey
      | some w =>
        rw [hw] at hkey
        cases hkey with
        | some hvw => simpa [hw] using hvw

end Assoc

namespace Heap

variable {h : Heap} {n m : Nat} {v w u : Value}

/-! ### Comparing down to the leaves -/

/-- A leaf is equal to itself only. -/
theorem sameTo_leaf_iff (hv : v.isLeaf = true) (depth : Nat) (w : Value) :
    h.sameTo depth v w = true ↔ v = w := by
  cases v <;> cases w <;> cases depth <;> simp_all [sameTo, Value.isLeaf]

/-- A range is equal to the range with its bounds only. -/
theorem sameTo_range_iff (r : IntRange) (depth : Nat) (w : Value) :
    h.sameTo depth (.range r) w = true ↔ .range r = w := by
  cases w <;> cases depth <;> simp [sameTo]

/-- Lists are compared by their addresses, or item by item. -/
theorem sameTo_list_iff (a : ListId) (depth : Nat) (w : Value) :
    h.sameTo (depth + 1) (.list a) w = true ↔ ∃ b, w = .list b ∧
      (a = b ∨ List.Forall₂ (fun v w => h.sameTo depth v w = true)
        (h.list a).toList (h.list b).toList) := by
  cases w with
  | list b => simp [sameTo, List.forall₂_iff_zip]
  | _ => simp [sameTo]

/-- Maps are compared by their addresses, or key by key. -/
theorem sameTo_map_iff (a : MapId) (depth : Nat) (w : Value) :
    h.sameTo (depth + 1) (.map a) w = true ↔ ∃ b, w = .map b ∧
      (a = b ∨ (h.map a).Keywise (fun v w => h.sameTo depth v w = true) (h.map b)) := by
  cases w with
  | map b =>
    have hentries : h.sameTo (depth + 1) (.map a) (.map b) = (a == b ||
        ((h.map a).size == (h.map b).size &&
          (h.map a).entries.all fun e => ((h.map b).get? e.1).any (h.sameTo depth e.2))) := by
      rw [sameTo]
      congr 3
      funext e
      cases (h.map b).get? e.1 <;> rfl
    -- the look at the entries of the first map is that of `keywise_iff`
    rw [hentries, Bool.or_eq_true, beq_iff_eq, Assoc.keywise_iff]
    simp
  | _ => simp [sameTo]

/-- What is nested at most so deep as it is compared is compared down to its leaves. -/
theorem sameTo_eq (hv : h.Plain n v) {depth depth' : Nat} (hle : n ≤ depth) (hle' : n ≤ depth')
    (w : Value) : h.sameTo depth v w = h.sameTo depth' v w := by
  induction hv generalizing depth depth' w with
  | leaf hleaf => rw [Bool.eq_iff_iff, sameTo_leaf_iff hleaf, sameTo_leaf_iff hleaf]
  | range r => rw [Bool.eq_iff_iff, sameTo_range_iff, sameTo_range_iff]
  | @list n a _ ih =>
    -- both bounds leave one level for the items
    obtain ⟨depth, rfl⟩ := Nat.exists_eq_add_of_le' (Nat.lt_of_lt_of_le n.succ_pos hle)
    obtain ⟨depth', rfl⟩ := Nat.exists_eq_add_of_le' (Nat.lt_of_lt_of_le n.succ_pos hle')
    rw [Bool.eq_iff_iff, sameTo_list_iff, sameTo_list_iff]
    refine exists_congr fun b => and_congr_right fun _ => or_congr_right ?_
    apply forall₂_congr_of_mem
    intro v hv w _
    rw [ih v hv (Nat.le_of_succ_le_succ hle) (Nat.le_of_succ_le_succ hle') w]
  | @map n a _ ih =>
    -- and one level for the values of a map
    obtain ⟨depth, rfl⟩ := Nat.exists_eq_add_of_le' (Nat.lt_of_lt_of_le n.succ_pos hle)
    obtain ⟨depth', rfl⟩ := Nat.exists_eq_add_of_le' (Nat.lt_of_lt_of_le n.succ_pos hle')
    rw [Bool.eq_iff_iff, sameTo_map_iff, sameTo_map_iff]
    refine exists_congr fun b => and_congr_right fun _ => or_congr_right ?_
    apply Assoc.keywise_congr_of_mem
    intro e he e' _
    rw [ih e he (Nat.le_of_succ_le_succ hle) (Nat.le_of_succ_le_succ hle') e'.2]

/-! ### Strict equality -/

/-- The relation that strict equality decides. -/
def Strictly (h : Heap) (v w : Value) : Prop := h.same v w = true

theorem strictly_leaf_iff (hv : v.isLeaf = true) : h.Strictly v w ↔ v = w :=
  sameTo_leaf_iff hv h.depth w

/-- Strictly equal to a range is the range with its bounds alone. -/
theorem strictly_range_iff (r : IntRange) : h.Strictly (.range r) w ↔ .range r = w :=
  sameTo_range_iff r h.depth w

/-- Strict equality is reflexive. -/
theorem strictly_refl (hv : h.Plain n v) : h.Strictly v v := by
  cases hv with
  | leaf hleaf => exact (strictly_leaf_iff hleaf).mpr rfl
  | range r => exact (strictly_range_iff r).mpr rfl
  | @list _ a _ => exact (sameTo_list_iff a _ (.list a)).mpr ⟨a, rfl, .inl rfl⟩
  | @map _ a _ => exact (sameTo_map_iff a _ (.map a)).mpr ⟨a, rfl, .inl rfl⟩

/-- What a value of the heap holds is compared down to its leaves as well. -/
theorem sameTo_iff_strictly (hv : h.Plain (h.lists.size + h.maps.size) v) (w : Value) :
    h.sameTo (h.lists.size + h.maps.size) v w = true ↔ h.Strictly v w := by
  show _ ↔ h.sameTo (h.lists.size + h.maps.size + 1) v w = true
  rw [sameTo_eq hv le_rfl (Nat.le_succ _)]

/-- The items of a list are nested no deeper than the heap has cells. -/
theorem Plain.items {a : ListId} (ha : h.Plain n (.list a)) :
    ∀ v ∈ (h.list a).toList, h.Plain (h.lists.size + h.maps.size) v := by
  cases ha.depth with
  | leaf hleaf => cases hleaf
  | list hitems => exact hitems

/-- The values of a map are nested no deeper than the heap has cells. -/
theorem Plain.values {a : MapId} (ha : h.Plain n (.map a)) :
    ∀ e ∈ (h.map a).entries, h.Plain (h.lists.size + h.maps.size) e.2 := by
  cases ha.depth with
  | leaf hleaf => cases hleaf
  | map hvalues => exact hvalues

/-- **Lists are equal if their items are**, one by one. -/
theorem strictly_list_iff {a : ListId} (ha : h.Plain n (.list a)) :
    h.Strictly (.list a) w ↔
      ∃ b, w = .list b ∧ List.Forall₂ h.Strictly (h.list a).toList (h.list b).toList := by
  show h.sameTo (h.lists.size + h.maps.size + 1) (.list a) w = true ↔ _
  rw [sameTo_list_iff]
  refine exists_congr fun b => and_congr_right fun _ => ?_
  rw [forall₂_congr_of_mem fun v hv w _ => sameTo_iff_strictly (ha.items v hv) w, or_iff_right_iff_imp]
  rintro rfl
  exact List.forall₂_same.mpr fun v hv => strictly_refl (ha.items v hv)

/-- **Maps are equal if they have equal values under each key**, or none. -/
theorem strictly_map_iff {a : MapId} (ha : h.Plain n (.map a)) :
    h.Strictly (.map a) w ↔ ∃ b, w = .map b ∧ (h.map a).Keywise h.Strictly (h.map b) := by
  show h.sameTo (h.lists.size + h.maps.size + 1) (.map a) w = true ↔ _
  rw [sameTo_map_iff]
  refine exists_congr fun b => and_congr_right fun _ => ?_
  rw [Assoc.keywise_congr_of_mem fun e he e' _ => sameTo_iff_strictly (ha.values e he) e'.2,
    or_iff_right_iff_imp]
  rintro rfl
  exact .refl_of_mem fun e he => strictly_refl (ha.values e he)

/-- Strict equality is symmetric. -/
theorem strictly_symm (hv : h.Plain n v) (hw : h.Plain m w) (hvw : h.Strictly v w) :
    h.Strictly w v := by
  induction hv generalizing w m with
  | leaf hleaf =>
    obtain rfl := (strictly_leaf_iff hleaf).mp hvw
    exact hvw
  | range r =>
    obtain rfl := (strictly_range_iff r).mp hvw
    exact hvw
  | @list _ a hitems ih =>
    obtain ⟨b, rfl, hab⟩ := (strictly_list_iff (.list hitems)).mp hvw
    -- the items are equal one by one the other way round
    refine (strictly_list_iff hw).mpr ⟨a, rfl, .flip ?_⟩
    apply forall₂_mono_of_mem hab
    intro v hv w hwb
    exact ih v hv (hw.items w hwb)
  | @map _ a hvalues ih =>
    obtain ⟨b, rfl, hab⟩ := (strictly_map_iff (.map hvalues)).mp hvw
    -- the values are equal key by key the other way round
    refine (strictly_map_iff hw).mpr ⟨a, rfl, .flip ?_⟩
    apply hab.mono_of_mem
    intro e he e' he'
    exact ih e he (hw.values e' he')

/-- Strict equality is transitive. -/
theorem strictly_trans (hu : h.Plain n u) (hv : h.Plain m v) (huv : h.Strictly u v)
    (hvw : h.Strictly v w) : h.Strictly u w := by
  induction hu generalizing v w m with
  | leaf hleaf =>
    obtain rfl := (strictly_leaf_iff hleaf).mp huv
    exact hvw
  | range r =>
    obtain rfl := (strictly_range_iff r).mp huv
    exact hvw
  | @list _ a hitems ih =>
    obtain ⟨b, rfl, hab⟩ := (strictly_list_iff (.list hitems)).mp huv
    obtain ⟨c, rfl, hbc⟩ := (strictly_list_iff hv).mp hvw
    -- the lists in the middle are the same, so that their items can be put together
    refine (strictly_list_iff (.list hitems)).mpr ⟨c, rfl, ?_⟩
    apply forall₂_trans_of_mem hab hbc
    intro u hu v hvb w
    exact ih u hu (hv.items v hvb)
  | @map _ a hvalues ih =>
    obtain ⟨b, rfl, hab⟩ := (strictly_map_iff (.map hvalues)).mp huv
    obtain ⟨c, rfl, hbc⟩ := (strictly_map_iff hv).mp hvw
    -- so are the maps in the middle
    refine (strictly_map_iff (.map hvalues)).mpr ⟨c, rfl, ?_⟩
    apply hab.trans_of_mem hbc
    intro e he e' he' w
    exact ih e he (hv.values e' he')

/-! ### Loose equality -/

/-- The relation that loose equality decides. -/
def Loosely (h : Heap) (v w : Value) : Prop := h.looselySame v w = true

/-- A value that is strictly equal to an integer is this integer. -/
theorem Strictly.asLong? (hvw : h.Strictly v w) {l : Int64} (hl : v.asLong? = some l) :
    w.asLong? = some l := by
  have hleaf : v.isLeaf = true := by cases v <;> first | rfl | cases hl
  obtain rfl := (strictly_leaf_iff hleaf).mp hvw
  exact hl

/-- A value without floats that is no integer is no number. -/
theorem Plain.asDouble?_eq_none (hv : h.Plain n v) (hl : v.asLong? = none) :
    v.asDouble? = none := by
  cases hv with
  | @leaf _ v hleaf => cases v <;> simp_all [Value.isLeaf, Value.asLong?, Value.asDouble?]
  | range | list | map => rfl

/-- **Loose equality** holds between integers that are the same, and where strict equality does. -/
theorem loosely_iff (hv : h.Plain n v) (hw : h.Plain m w) :
    h.Loosely v w ↔ (∃ l, v.asLong? = some l ∧ w.asLong? = some l) ∨ h.Strictly v w := by
  unfold Loosely looselySame
  cases hlv : v.asLong? with
  | some l =>
    cases hlw : w.asLong? with
    | some l' =>
      -- two integers that are equal strictly are equal as integers
      have hstrict : h.Strictly v w → l = l' := by
        intro hvw
        have hl := hvw.asLong? hlv
        rw [hlw] at hl
        exact (Option.some.inj hl).symm
      simp only [beq_iff_eq, Option.some.injEq]
      constructor
      · rintro rfl
        exact .inl ⟨l, rfl, rfl⟩
      · rintro (⟨_, rfl, rfl⟩ | hvw)
        · rfl
        · exact hstrict hvw
    | none =>
      -- an integer and something else are left to strict equality
      simp only [hw.asDouble?_eq_none hlw, reduceCtorEq, and_false, exists_false, false_or]
      cases v.asDouble? <;> rfl
  | none =>
    -- something else than an integer is left to it as well
    simp only [hv.asDouble?_eq_none hlv, reduceCtorEq, false_and, exists_false, false_or]
    rfl

theorem loosely_of_strictly (hv : h.Plain n v) (hw : h.Plain m w) (hvw : h.Strictly v w) :
    h.Loosely v w := (loosely_iff hv hw).mpr (.inr hvw)

/-- Loose equality is symmetric. -/
theorem loosely_symm (hv : h.Plain n v) (hw : h.Plain m w) (hvw : h.Loosely v w) :
    h.Loosely w v := by
  rw [loosely_iff hw hv]
  obtain ⟨l, hlv, hlw⟩ | hstrict := (loosely_iff hv hw).mp hvw
  · exact .inl ⟨l, hlw, hlv⟩
  · exact .inr (strictly_symm hv hw hstrict)

/-- Loose equality is transitive. -/
theorem loosely_trans {k : Nat} (hu : h.Plain n u) (hv : h.Plain m v) (hw : h.Plain k w)
    (huv : h.Loosely u v) (hvw : h.Loosely v w) : h.Loosely u w := by
  rw [loosely_iff hu hw]
  obtain ⟨l, hlu, hlv⟩ | huv := (loosely_iff hu hv).mp huv
  · -- Whatever the third value is compared by, it is the same integer.
    obtain ⟨l', hlv', hlw⟩ | hvw := (loosely_iff hv hw).mp hvw
    · rw [hlv, Option.some.injEq] at hlv'
      exact .inl ⟨l, hlu, hlv' ▸ hlw⟩
    · exact .inl ⟨l, hlu, hvw.asLong? hlv⟩
  · obtain ⟨l, hlv, hlw⟩ | hvw := (loosely_iff hv hw).mp hvw
    · exact .inl ⟨l, (strictly_symm hu hv huv).asLong? hlv, hlw⟩
    · exact .inr (strictly_trans hu hv huv hvw)

/-! ### The equalities of the language -/

/-- A value without floats that holds itself nowhere. -/
def PlainValue (h : Heap) : Type := { v : Value // ∃ n, h.Plain n v }

/-- What is decided by which equality: `equals()` and the cases of a switch by the strict one, `==`
and the search for an item of a list by the loose one. -/
structure Compares (h : Heap) : Prop where
  equals : ∀ v w, h.commonMethod v "equals" [w] = some (.ok (.bool (h.same v w)))
  ofCase : ∀ (config : Config) (scope : ScopeId) (subject : Value) (e : Expr) (rest : List Expr)
    (st after : RenderState) (v : Value), (config.eval scope e).runOn st = (.ok v, after) →
    after.memory.heap = h → (config.anyIs scope subject (e :: rest)).runOn st =
      if h.same v subject then (.ok true, after) else (config.anyIs scope subject rest).runOn after
  operator : ∀ v w, h.compare .eq v w = .ok (h.looselySame v w)
  contains : ∀ id w, h.listMethod id "contains" [w] =
    (some (.ok (.bool ((h.list id).any (h.looselySame · w)))), h)
  indexOf : ∀ id w, h.listMethod id "indexOf" [w] =
    (some (.ok (.ofPosition? ((h.list id).toList.findIdx? (h.looselySame · w)))), h)

theorem compares (h : Heap) : h.Compares where
  equals _ _ := rfl
  ofCase := by
    intro config scope subject e rest st after v hv hheap
    have hread : Render.heap.runOn after = (.ok h, after) :=
      congrArg (fun heap => (Except.ok heap, after)) hheap
    rw [Config.anyIs, Render.runOn_bind, hv]
    dsimp only
    rw [Render.runOn_bind, hread]
    dsimp only
    split <;> rfl
  operator _ _ := rfl
  contains _ _ := rfl
  indexOf _ _ := rfl

end Heap

/-- **Both equalities are equivalences** of the values without floats that hold themselves nowhere,
however these are nested and shared. What is strictly equal is loosely equal. Two lists are equal if
and only if their items are, one by one. Two maps are equal if and only if they have equal values
under each key, or none, and so in particular if they have the same entries in different orders. -/
theorem equality_equivalence (h : Heap) :
    Equivalence (fun v w : h.PlainValue => h.Strictly v.1 w.1) ∧
      Equivalence (fun v w : h.PlainValue => h.Loosely v.1 w.1) ∧
      (∀ v w : h.PlainValue, h.Strictly v.1 w.1 → h.Loosely v.1 w.1) ∧
      (∀ (n : Nat) (a b : ListId), h.Plain n (.list a) →
        (h.Strictly (.list a) (.list b) ↔
          List.Forall₂ h.Strictly (h.list a).toList (h.list b).toList)) ∧
      (∀ (n : Nat) (a b : MapId), h.Plain n (.map a) →
        (h.Strictly (.map a) (.map b) ↔ (h.map a).Keywise h.Strictly (h.map b)) ∧
        ((h.map a).entries.Perm (h.map b).entries → h.Strictly (.map a) (.map b))) ∧
      h.Compares := by
  refine ⟨⟨?_, ?_, ?_⟩, ⟨?_, ?_, ?_⟩, ?_, ?_, ?_, h.compares⟩
  · rintro ⟨v, n, hv⟩
    exact Heap.strictly_refl hv
  · rintro ⟨v, n, hv⟩ ⟨w, m, hw⟩
    exact Heap.strictly_symm hv hw
  · rintro ⟨u, n, hu⟩ ⟨v, m, hv⟩ ⟨w, -⟩
    exact Heap.strictly_trans hu hv
  · rintro ⟨v, n, hv⟩
    exact Heap.loosely_of_strictly hv hv (Heap.strictly_refl hv)
  · rintro ⟨v, n, hv⟩ ⟨w, m, hw⟩
    exact Heap.loosely_symm hv hw
  · rintro ⟨u, n, hu⟩ ⟨v, m, hv⟩ ⟨w, k, hw⟩
    exact Heap.loosely_trans hu hv hw
  · rintro ⟨v, n, hv⟩ ⟨w, m, hw⟩
    exact Heap.loosely_of_strictly hv hw
  · intro n a b ha
    rw [Heap.strictly_list_iff ha]
    simp
  · intro n a b ha
    have hiff : h.Strictly (.map a) (.map b) ↔ (h.map a).Keywise h.Strictly (h.map b) := by
      rw [Heap.strictly_map_iff ha]
      simp
    refine ⟨hiff, fun hperm => hiff.mpr ?_⟩
    exact .of_perm hperm fun e he => Heap.strictly_refl (ha.values e he)

/-- Two maps that hold the same list twice, under the same keys in different orders. -/
theorem equality_equivalence_reordered :
    let h : Heap := {
      lists := #[#[.int 1, .long 1]]
      maps := #[⟨[("a", .list ⟨0⟩), ("b", .null), ("c", .list ⟨0⟩)], by decide⟩,
        ⟨[("c", .list ⟨0⟩), ("a", .list ⟨0⟩), ("b", .null)], by decide⟩] }
    h.Plain 2 (.map ⟨0⟩) ∧ (h.map ⟨0⟩).entries.Perm (h.map ⟨1⟩).entries ∧
      h.Strictly (.map ⟨0⟩) (.map ⟨1⟩) := by
  intro h
  have hlist : h.Plain 1 (.list ⟨0⟩) := by
    refine .list ?_
    show ∀ v ∈ [Value.int 1, Value.long 1], h.Plain 0 v
    rw [List.forall_mem_cons, List.forall_mem_singleton]
    exact ⟨.leaf rfl, .leaf rfl⟩
  have hmap : h.Plain 2 (.map ⟨0⟩) := by
    refine .map ?_
    show ∀ e ∈ [("a", Value.list ⟨0⟩), ("b", .null), ("c", .list ⟨0⟩)], h.Plain 1 e.2
    rw [List.forall_mem_cons, List.forall_mem_cons, List.forall_mem_singleton]
    exact ⟨hlist, .leaf rfl, hlist⟩
  have hperm : (h.map ⟨0⟩).entries.Perm (h.map ⟨1⟩).entries := by
    show [("a", Value.list ⟨0⟩), ("b", .null), ("c", .list ⟨0⟩)].Perm
      (("c", .list ⟨0⟩) :: [("a", .list ⟨0⟩), ("b", .null)])
    exact List.perm_append_singleton ("c", Value.list ⟨0⟩) [("a", .list ⟨0⟩), ("b", .null)]
  obtain ⟨-, -, -, -, hmaps, -⟩ := equality_equivalence h
  exact ⟨hmap, hperm, (hmaps 2 ⟨0⟩ ⟨1⟩ hmap).2 hperm⟩

end Stencil
