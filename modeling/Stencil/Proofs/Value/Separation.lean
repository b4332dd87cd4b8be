import Mathlib
import Stencil.Expr.Eval
import Stencil.Proofs.Template.Likeness
import Stencil.Render.Walk

/-!
# Maps that are set aside

A map can be changed only by somebody who has a reference to it, and references are handed on or
come with a new map; none is made up. So maps that are **set aside** — no value at hand is one of
them, and none is stored in the heap — stay as they are, whatever is read, written, computed and
called (`Heap.Onward`).

* The values that a heap stores are the items of lists, the entries of maps, what iterators have
  yet to give, the outer statuses of loops and the fields of host objects (`Heap.Stores`).
* What is at hand may be no map that is not there yet either: the next map to be made would be it.
  So the number of maps is part of what is said of a value (`Value.Clear`).
* Operations of the host are taken to be **honest**: they reach what they are handed, and what can
  be reached from there, and nothing else (`Operation.Honest`).

Main definitions: `Value.Clear`, `Heap.Clear`, `Heap.Onward`, `Operation.Honest`.
Main statements: `Heap.Clear.callMethod`, `Heap.Clear.writeIndex`, `Heap.Clear.next?`.
-/

namespace Stencil

variable {aside : MapId → Prop} {size size' : Nat} {v : Value}

/-! ### Cells -/

/-- What is read from cells of which one has been written. -/
theorem getD_setIfInBounds {α : Type} (cells : Array α) (i j : Nat) (x default : α) :
    (cells.setIfInBounds i x).getD j default =
      if j = i ∧ i < cells.size then x else cells.getD j default := by
  rw [Array.getD_eq_getD_getElem?, Array.getElem?_setIfInBounds, Array.getD_eq_getD_getElem?]
  by_cases hj : i = j
  · subst hj
    by_cases hsize : i < cells.size
    · simp [hsize]
    · simp [hsize]
  · rw [if_neg hj, if_neg fun hboth => hj hboth.1.symm]

/-- What is read from cells with a new one behind them. -/
theorem getD_push {α : Type} (cells : Array α) (j : Nat) (x default : α) :
    (cells.push x).getD j default = if j = cells.size then x else cells.getD j default := by
  rw [Array.getD_eq_getD_getElem?, Array.getElem?_push, Array.getD_eq_getD_getElem?]
  split <;> rfl

/-! ### Values -/

/-- A value is no map. -/
def Value.NoMap (v : Value) : Prop := ∀ id, v ≠ .map id

/-- A value is no map that is set aside, and no map that is not there, where there are so many. -/
def Value.Clear (aside : MapId → Prop) (size : Nat) (v : Value) : Prop :=
  ∀ id, v = .map id → id.index < size ∧ ¬ aside id

namespace Value

theorem Clear.mono (h : v.Clear aside size) (hle : size ≤ size') : v.Clear aside size' :=
  fun id hid => ⟨Nat.lt_of_lt_of_le (h id hid).1 hle, (h id hid).2⟩

theorem Clear.fewer {aside' : MapId → Prop} (h : v.Clear aside size)
    (hfewer : ∀ id, aside' id → aside id) : v.Clear aside' size :=
  fun id hid => ⟨(h id hid).1, fun hid' => (h id hid).2 (hfewer id hid')⟩

theorem NoMap.clear (h : v.NoMap) : v.Clear aside size := fun id hid => absurd hid (h id)

theorem noMap_of_isNumber (h : v.isNumber = true) : v.NoMap := by
  rintro id rfl
  cases h

theorem noMap_ofNat (n : Nat) : (ofNat n).NoMap := by
  intro id
  unfold ofNat
  split
  · exact Value.noConfusion
  · split <;> exact Value.noConfusion

theorem noMap_ofPosition? (position : Option Nat) : (ofPosition? position).NoMap := by
  cases position with
  | none => exact fun _ => Value.noConfusion
  | some n => exact noMap_ofNat n

theorem noMap_bool (b : Bool) : (bool b).NoMap := fun _ => Value.noConfusion

theorem noMap_str (s : String) : (str s).NoMap := fun _ => Value.noConfusion

theorem noMap_null : null.NoMap := fun _ => Value.noConfusion

end Value

/-- The result of an operator is no map. -/
theorem Heap.arith_noMap {h : Heap} {op : ArithOp} {a b : Value} (hok : h.arith op a b = .ok v) :
    v.NoMap := by
  unfold Heap.arith at hok
  split at hok
  · cases hok
    exact Value.noMap_str _
  · split at hok
    · cases hok
    · rename_i pair _
      -- the operator has a result for pairs of integers only, and it is an integer
      cases hpair : op.onPair pair with
      | none =>
        rw [hpair] at hok
        cases hok
      | some w =>
        rw [hpair] at hok
        cases hok
        refine Value.noMap_of_isNumber ?_
        cases pair with
        | int | long =>
          obtain ⟨_, -, rfl⟩ := Option.map_eq_some_iff.mp hpair
          rfl
        | float | double =>
          cases hpair
          rfl

theorem Value.signed_noMap {sign : Sign} {w : Value} (hok : w.signed sign = .ok v) : v.NoMap := by
  refine noMap_of_isNumber ?_
  unfold signed at hok
  split at hok
  · cases hok
    rfl
  · cases hok
    rfl
  · cases hok
    rfl
  · cases hok
    rfl
  -- a value that is no number has no sign
  · split at hok
    · rename_i hnumber
      cases hok
      exact hnumber
    · cases hok
  · cases hok

theorem Value.rangeTo_noMap {a b : Value} (hok : a.rangeTo b = .ok v) : v.NoMap := by
  unfold rangeTo at hok
  split at hok
  · cases hok
    exact fun _ => Value.noConfusion
  · cases hok

/-- No field of a loop status is a map, unless the outer status is. -/
theorem LoopStatus.field?_eq_some {s : LoopStatus} {name : String} (hv : s.field? name = some v) :
    v.NoMap ∨ v = s.outer := by
  have hform {size : Option Nat} {last : Bool} (hs : s.form = .walking size last)
      (hv : LoopStatus.size? s.form = some v) : v.NoMap := by
    rw [hs] at hv
    cases size with
    | none => exact Option.some.inj hv ▸ Value.noMap_null
    | some n => exact Option.some.inj hv ▸ Value.noMap_ofNat n
  unfold field? at hv
  split at hv
  · exact .inl (Option.some.inj hv ▸ Value.noMap_ofNat _)
  · exact .inl (Option.some.inj hv ▸ Value.noMap_ofNat _)
  · exact .inl (Option.some.inj hv ▸ Value.noMap_bool _)
  · exact .inl (Option.some.inj hv ▸ Value.noMap_bool _)
  · exact .inl (Option.some.inj hv ▸ Value.noMap_bool _)
  · exact .inr (Option.some.inj hv).symm
  · cases hs : s.form with
    | counting =>
      rw [hs] at hv
      cases hv
    | walking size last =>
      rw [hs] at hv
      exact .inl (Option.some.inj hv ▸ Value.noMap_bool _)
  · cases hs : s.form with
    | counting =>
      rw [hs] at hv
      cases hv
    | walking size last => exact .inl (hform hs hv)
  · cases hv

/-! ### What a heap stores -/

/-- A value that is stored in a heap. -/
inductive Heap.Stores (h : Heap) : Value → Prop
  | item {id : ListId} {v : Value} : v ∈ h.list id → Stores h v
  | entry {id : MapId} {key : String} {v : Value} : (key, v) ∈ (h.map id).entries → Stores h v
  | remaining {id : IterId} {v : Value} : v ∈ h.remaining id → Stores h v
  | outer (id : StatusId) : Stores h (h.status id).outer
  | field {id : ObjectId} {name : String} {v : Value} :
      (name, v) ∈ (h.object id).fields → Stores h v

/-- In a heap no map that is set aside is stored, and no map that is not there. The maps that are
set aside are there. -/
structure Heap.Clear (aside : MapId → Prop) (h : Heap) : Prop where
  there : ∀ id, aside id → id.index < h.maps.size
  stored : ∀ v, h.Stores v → v.Clear aside h.maps.size

/-- What becomes of a heap with maps set aside: they are still aside, and as they were. -/
structure Heap.Onward (aside : MapId → Prop) (h h' : Heap) : Prop where
  clear : h'.Clear aside
  size : h.maps.size ≤ h'.maps.size
  kept : ∀ id, aside id → h'.map id = h.map id

namespace Heap

variable {h h' h'' : Heap}

theorem Onward.trans (ho : h.Onward aside h') (ho' : h'.Onward aside h'') : h.Onward aside h'' where
  clear := ho'.clear
  size := Nat.le_trans ho.size ho'.size
  kept id hid := (ho'.kept id hid).trans (ho.kept id hid)

/-- Fewer maps may be set aside. -/
theorem Clear.fewer {aside' : MapId → Prop} (hc : h.Clear aside)
    (hfewer : ∀ id, aside' id → aside id) : h.Clear aside' :=
  ⟨fun id hid => hc.there id (hfewer id hid), fun v hv => (hc.stored v hv).fewer hfewer⟩

theorem Clear.refl (hc : h.Clear aside) : h.Onward aside h := ⟨hc, Nat.le_refl _, fun _ _ => rfl⟩

/-- A heap whose maps are as they were, and that stores only what is clear. -/
theorem Clear.onward (hc : h.Clear aside) (hmaps : h'.maps = h.maps)
    (hstores : ∀ v, h'.Stores v → h.Stores v ∨ v.Clear aside h.maps.size) : h.Onward aside h' where
  clear :=
    { there := fun id hid => by
        rw [hmaps]
        exact hc.there id hid
      stored := fun v hv => by
        rw [hmaps]
        exact (hstores v hv).elim (hc.stored v) id }
  size := by rw [hmaps]
  kept id _ := by rw [map, map, hmaps]

/-- In an empty heap nothing is stored. -/
theorem clear_empty : ({} : Heap).Clear fun _ => False where
  there _ h := h.elim
  stored v hv := by
    refine Value.NoMap.clear ?_
    cases hv with
    | item hv => exact absurd hv (Array.not_mem_empty v)
    | entry hv | remaining hv | field hv => exact absurd hv List.not_mem_nil
    | outer id => exact Value.noMap_null

/-! ### Writing and allocation -/

theorem stores_setList {id : ListId} {items : Array Value} (hv : (h.setList id items).Stores v) :
    h.Stores v ∨ v ∈ items := by
  -- the only stored values that can be new are items of this list
  cases hv with
  | @item id' v hv =>
    rw [list, setList, getD_setIfInBounds] at hv
    split at hv
    · exact .inr hv
    · exact .inl (.item hv)
  | entry hv => exact .inl (.entry hv)
  | remaining hv => exact .inl (.remaining hv)
  | outer id => exact .inl (.outer id)
  | field hv => exact .inl (.field hv)

theorem map_setMap (h : Heap) (id : MapId) (entries : Assoc Value) (id' : MapId) :
    (h.setMap id entries).map id' =
      if id'.index = id.index ∧ id.index < h.maps.size then entries else h.map id' :=
  getD_setIfInBounds ..

theorem stores_setMap {id : MapId} {entries : Assoc Value} (hv : (h.setMap id entries).Stores v) :
    h.Stores v ∨ ∃ key, (key, v) ∈ entries.entries := by
  cases hv with
  -- the only stored values that can be new are entries of this map
  | entry hv =>
    rw [map_setMap] at hv
    split at hv
    · exact .inr ⟨_, hv⟩
    · exact .inl (.entry hv)
  | item hv => exact .inl (.item hv)
  | remaining hv => exact .inl (.remaining hv)
  | outer id => exact .inl (.outer id)
  | field hv => exact .inl (.field hv)

theorem stores_newList {items : Array Value} (hv : (h.newList items).2.Stores v) :
    h.Stores v ∨ v ∈ items := by
  cases hv with
  | @item id v hv =>
    rw [list, newList, getD_push] at hv
    split at hv
    · exact .inr hv
    · exact .inl (.item hv)
  | entry hv => exact .inl (.entry hv)
  | remaining hv => exact .inl (.remaining hv)
  | outer id => exact .inl (.outer id)
  | field hv => exact .inl (.field hv)

theorem stores_newStatus {s : LoopStatus} (hv : (h.newStatus s).2.Stores v) :
    h.Stores v ∨ v = s.outer := by
  cases hv with
  -- the only stored value that can be new is the outer status of this one
  | outer id =>
    rw [status, newStatus, getD_push]
    split
    · exact .inr rfl
    · exact .inl (.outer id)
  | item hv => exact .inl (.item hv)
  | entry hv => exact .inl (.entry hv)
  | remaining hv => exact .inl (.remaining hv)
  | field hv => exact .inl (.field hv)

theorem stores_next {id : IterId} {rest : List Value}
    (hv : { h with iterators := h.iterators.setIfInBounds id.index rest }.Stores v) :
    h.Stores v ∨ v ∈ rest := by
  cases hv with
  | @remaining id' v hv =>
    rw [remaining, getD_setIfInBounds] at hv
    split at hv
    · exact .inr hv
    · exact .inl (.remaining hv)
  | item hv => exact .inl (.item hv)
  | entry hv => exact .inl (.entry hv)
  | outer id => exact .inl (.outer id)
  | field hv => exact .inl (.field hv)

theorem map_newMap (h : Heap) (entries : Assoc Value) (id : MapId) :
    (h.newMap entries).2.map id = if id.index = h.maps.size then entries else h.map id :=
  getD_push ..

theorem stores_newMap {entries : Assoc Value} (hv : (h.newMap entries).2.Stores v) :
    h.Stores v ∨ ∃ key, (key, v) ∈ entries.entries := by
  cases hv with
  | entry hv =>
    rw [map_newMap] at hv
    split at hv
    · exact .inr ⟨_, hv⟩
    · exact .inl (.entry hv)
  | item hv => exact .inl (.item hv)
  | remaining hv => exact .inl (.remaining hv)
  | outer id => exact .inl (.outer id)
  | field hv => exact .inl (.field hv)

namespace Clear

variable (hc : h.Clear aside)

include hc

theorem item {id : ListId} (hv : v ∈ h.list id) : v.Clear aside h.maps.size :=
  hc.stored v (.item hv)

theorem get? {id : MapId} {key : String} (hv : (h.map id).get? key = some v) :
    v.Clear aside h.maps.size :=
  hc.stored v (.entry (Assoc.mem_entries_of_get? hv))

theorem getD {id : MapId} {key : String} {fallback : Value}
    (hfallback : fallback.Clear aside h.maps.size) :
    (((h.map id).get? key).getD fallback).Clear aside h.maps.size := by
  cases hget : (h.map id).get? key with
  | none => exact hfallback
  | some v => exact hc.get? hget

theorem fieldOf {id : ObjectId} {name : String} (hv : (h.object id).fields.lookup name = some v) :
    v.Clear aside h.maps.size :=
  hc.stored v (.field (mem_of_lookup hv))

theorem status {id : StatusId} {name : String} (hv : (h.status id).field? name = some v) :
    v.Clear aside h.maps.size := by
  rcases LoopStatus.field?_eq_some hv with hnone | rfl
  · exact hnone.clear
  · exact hc.stored _ (.outer id)

theorem setList {id : ListId} {items : Array Value}
    (hitems : ∀ v ∈ items, v.Clear aside h.maps.size) : h.Onward aside (h.setList id items) :=
  hc.onward rfl fun v hv => (stores_setList hv).imp_right (hitems v)

theorem newList {items : Array Value} (hitems : ∀ v ∈ items, v.Clear aside h.maps.size) :
    h.Onward aside (h.newList items).2 :=
  hc.onward rfl fun v hv => (stores_newList hv).imp_right (hitems v)

theorem newStatus {s : LoopStatus} (houter : s.outer.Clear aside h.maps.size) :
    h.Onward aside (h.newStatus s).2 :=
  hc.onward rfl fun _ hv => (stores_newStatus hv).imp_right (by rintro rfl; exact houter)

/-- A map that is at hand is not set aside, so it may be changed. -/
theorem setMap {id : MapId} {entries : Assoc Value} (hid : ¬ aside id)
    (hentries : ∀ e ∈ entries.entries, e.2.Clear aside h.maps.size) :
    h.Onward aside (h.setMap id entries) := by
  have hsize : (h.setMap id entries).maps.size = h.maps.size := Array.size_setIfInBounds
  refine ⟨⟨fun id' hid' => ?_, fun v hv => ?_⟩, Nat.le_of_eq hsize.symm, fun id' hid' => ?_⟩
  · rw [hsize]
    exact hc.there id' hid'
  · rw [hsize]
    rcases stores_setMap hv with hv | ⟨key, hv⟩
    · exact hc.stored v hv
    · exact hentries (key, v) hv
  -- a map that is set aside has another address
  · rw [map_setMap, if_neg]
    rintro ⟨hindex, -⟩
    obtain rfl : id' = id := congrArg MapId.mk hindex
    exact hid hid'

/-- A new map is not set aside, for the maps that are set aside are there already. -/
theorem newMap {entries : Assoc Value}
    (hentries : ∀ e ∈ entries.entries, e.2.Clear aside h.maps.size) :
    h.Onward aside (h.newMap entries).2 ∧
      (h.newMap entries).1.Clear aside (h.newMap entries).2.maps.size := by
  have hsize : (h.newMap entries).2.maps.size = h.maps.size + 1 := Array.size_push _
  have hgrows : h.maps.size ≤ (h.newMap entries).2.maps.size := by
    rw [hsize]
    exact Nat.le_succ _
  refine ⟨⟨⟨fun id hid => ?_, fun v hv => ?_⟩, hgrows, fun id hid => ?_⟩, ?_⟩
  · exact Nat.lt_of_lt_of_le (hc.there id hid) hgrows
  · rcases stores_newMap hv with hv | ⟨key, hv⟩
    · exact (hc.stored v hv).mono hgrows
    · exact (hentries (key, v) hv).mono hgrows
  -- the address of the new map is that of no map that was there
  · rw [map_newMap, if_neg (Nat.ne_of_lt (hc.there id hid))]
  · rintro id ⟨⟩
    refine ⟨?_, fun hid => Nat.lt_irrefl _ (hc.there _ hid)⟩
    rw [hsize]
    exact Nat.lt_succ_self _

/-- What an iterator gives was stored in it. -/
theorem next? {id : IterId} {r : Value × Heap} (hnext : h.next? id = some r) :
    r.1.Clear aside h.maps.size ∧ h.Onward aside r.2 := by
  unfold Heap.next? at hnext
  split at hnext
  · cases hnext
  · rename_i v rest hrest
    cases hnext
    refine ⟨hc.stored v (.remaining (hrest ▸ List.mem_cons_self)), hc.onward rfl fun w hw => ?_⟩
    -- what is left to be given was stored before
    rcases stores_next hw with hw | hw
    · exact .inl hw
    · exact .inl (.remaining (hrest ▸ List.mem_cons_of_mem v hw))

/-! ### Reads and writes of expressions -/

/-- What is read by an index was stored, or is no map. -/
theorem readIndex {nullSafe : Bool} {target key : Value}
    (hok : h.readIndex nullSafe target key = .ok v) : v.Clear aside h.maps.size := by
  cases target with
  | null =>
    change (if nullSafe then Except.ok Value.null else _) = _ at hok
    split at hok
    · cases hok
      exact Value.noMap_null.clear
    · cases hok
  | list id =>
    obtain ⟨i, -, hi⟩ := bind_eq_ok_iff.mp hok
    split at hi
    · rename_i hitem
      cases hi
      exact hc.item (Array.mem_of_getElem? hitem)
    · cases hi
  | map id =>
    cases hok
    exact hc.getD Value.noMap_null.clear
  | range r =>
    obtain ⟨i, -, hi⟩ := bind_eq_ok_iff.mp hok
    split at hi
    · cases hi
      exact Value.NoMap.clear fun _ => Value.noConfusion
    · cases hi
  | str s =>
    obtain ⟨i, -, hi⟩ := bind_eq_ok_iff.mp hok
    split at hi
    · cases hi
      exact (Value.noMap_str _).clear
    · cases hi
  | object id =>
    cases hok
    cases hget : (h.object id).fields.lookup (h.text key) with
    | none => exact Value.noMap_null.clear
    | some v => exact hc.fieldOf hget
  | _ => cases hok

/-- What is read by a field was stored, or is no map. -/
theorem field? {target : Value} {name : String} (hfield : h.field? target name = some v) :
    v.Clear aside h.maps.size := by
  cases target with
  | map id =>
    cases hfield
    exact hc.getD Value.noMap_null.clear
  | status id => exact hc.status hfield
  | object id => exact hc.fieldOf hfield
  | list | range =>
    obtain ⟨-, heq⟩ := Option.ite_none_right_eq_some.mp hfield
    exact Option.some.inj heq ▸ (Value.noMap_ofNat _).clear
  | _ => cases hfield

theorem readField {nullSafe : Bool} {target : Value} {name : String}
    (hok : h.readField nullSafe target name = .ok v) : v.Clear aside h.maps.size := by
  unfold Heap.readField at hok
  split at hok
  · split at hok
    · cases hok
      exact Value.noMap_null.clear
    · cases hok
  · split at hok
    · rename_i hfield
      cases hok
      exact hc.field? hfield
    · cases hok

/-- An index assignment changes what it is given. -/
theorem writeIndex {name : String} {target key value : Value}
    (htarget : target.Clear aside h.maps.size) (hvalue : value.Clear aside h.maps.size) :
    h.Onward aside (h.writeIndex name target key value).2 := by
  cases target with
  | list id =>
    -- a list at an index that it does not have stays as it is
    unfold Heap.writeIndex
    dsimp only
    split
    · exact hc.refl
    · split
      · refine hc.setList fun w hw => ?_
        rcases Array.mem_or_eq_of_mem_setIfInBounds hw with hw | rfl
        · exact hc.item hw
        · exact hvalue
      · exact hc.refl
  | map id =>
    unfold Heap.writeIndex
    dsimp only
    split
    -- A map that is locked stays as it is.
    · exact hc.refl
    · refine hc.setMap (htarget id rfl).2 fun e he => ?_
      rcases Assoc.mem_write he with rfl | he
      · exact hvalue
      · exact hc.stored _ (.entry he)
  | _ => exact hc.refl

end Clear

/-! ### Methods -/

/-- From a heap with maps set aside, a computation leaves them aside and as they were, and what its
result holds is clear. -/
structure Passes {α : Type} (aside : MapId → Prop) (h : Heap) (holds : α → Value → Prop)
    (out : α × Heap) : Prop where
  onward : h.Onward aside out.2
  result : ∀ v, holds out.1 v → v.Clear aside out.2.maps.size

end Heap

/-- The value that a method answers with. -/
def MethodResult.Answers (result : MethodResult) (v : Value) : Prop := result = some (.ok v)

/-- The value that an operation of the host answers with. -/
def Operation.Answers (result : Except String Value) (v : Value) : Prop := result = .ok v

/-- An operation of the host that is **honest**: it changes no map but those that it has been given,
that it can get to from there, and that it makes. It stores and answers with no others either. -/
def Operation.Honest (operation : Operation) : Prop :=
  ∀ (aside : MapId → Prop) (args : List Value) (h : Heap), h.Clear aside →
    (∀ v ∈ args, v.Clear aside h.maps.size) →
      h.Passes aside Operation.Answers (operation args h)

section Strings

variable {cs : List Char} {name : String}

theorem plainStringMethod?_noMap (hv : plainStringMethod? cs name = some v) : v.NoMap := by
  unfold plainStringMethod? at hv
  split at hv
  · exact Option.some.inj hv ▸ Value.noMap_ofNat _
  · exact Option.some.inj hv ▸ Value.noMap_bool _
  · exact Option.some.inj hv ▸ Value.noMap_str _
  · exact Option.some.inj hv ▸ Value.noMap_str _
  · exact Option.some.inj hv ▸ Value.noMap_str _
  · cases hv

theorem searchMethod_noMap {needle : List Char} (hv : searchMethod cs needle name = .inl v) :
    v.NoMap := by
  unfold searchMethod at hv
  split at hv
  · exact Sum.inl.inj hv ▸ Value.noMap_bool _
  · exact Sum.inl.inj hv ▸ Value.noMap_bool _
  · exact Sum.inl.inj hv ▸ Value.noMap_bool _
  · exact Sum.inl.inj hv ▸ Value.noMap_ofPosition? _
  · exact Sum.inl.inj hv ▸ Value.noMap_ofPosition? _
  · cases hv

theorem charAt_noMap {index : Nat} (hv : charAt cs index = .ok v) : v.NoMap := by
  unfold charAt at hv
  split at hv
  · exact Except.ok.inj hv ▸ Value.noMap_str _
  · cases hv

/-- A slice is no map. -/
theorem substring_noMap {start stop : Nat} (hv : substring cs start stop = .ok v) : v.NoMap := by
  unfold substring at hv
  split at hv
  · cases hv
  · exact Except.ok.inj hv ▸ Value.noMap_str _

end Strings

theorem Heap.numberMethod_noMap {target : Value} {name : String}
    (hv : Heap.numberMethod target name = some v) : v.NoMap := by
  refine Value.noMap_of_isNumber ?_
  unfold Heap.numberMethod at hv
  split at hv
  all_goals cases hv
  all_goals rfl

theorem Heap.rangeMethod_noMap {h : Heap} {r : IntRange} {name : String} {args : List Value}
    (hv : (h.rangeMethod r name args).Answers v) : v.NoMap := by
  unfold MethodResult.Answers Heap.rangeMethod at hv
  split at hv
  · exact Except.ok.inj (Option.some.inj hv) ▸ Value.noMap_ofNat _
  · exact Except.ok.inj (Option.some.inj hv) ▸ Value.noMap_bool _
  · obtain ⟨i, -, hi⟩ := bind_eq_ok_iff.mp (Option.some.inj hv)
    split at hi
    · exact Except.ok.inj hi ▸ fun _ => Value.noConfusion
    · cases hi
  · exact Except.ok.inj (Option.some.inj hv) ▸ Value.noMap_bool _
  · exact Except.ok.inj (Option.some.inj hv) ▸ Value.noMap_ofPosition? _
  · obtain ⟨_, -, rfl⟩ := map_eq_ok_iff.mp (Option.some.inj hv)
    exact Value.noMap_str _
  · cases hv

theorem Heap.commonMethod_noMap {h : Heap} {target : Value} {name : String} {args : List Value}
    (hv : (h.commonMethod target name args).Answers v) : v.NoMap := by
  unfold MethodResult.Answers Heap.commonMethod at hv
  split at hv
  · exact Except.ok.inj (Option.some.inj hv) ▸ Value.noMap_str _
  · exact Except.ok.inj (Option.some.inj hv) ▸ Value.noMap_bool _
  · cases hv
  · cases hv
  · cases hv

/-- A method that answers with what is clear, in the heap that it leaves. -/
theorem Heap.Onward.answer {h h' : Heap} (ho : h.Onward aside h')
    (hv : v.Clear aside h'.maps.size) : h.Passes aside MethodResult.Answers (some (.ok v), h') :=
  ⟨ho, fun _ hw => Except.ok.inj (Option.some.inj hw) ▸ hv⟩

namespace Heap.Clear

variable {h : Heap} (hc : h.Clear aside)

include hc

/-- A method that only reads and answers with what is clear. -/
theorem reads {result : MethodResult}
    (hresult : ∀ v, result.Answers v → v.Clear aside h.maps.size) :
    h.Passes aside MethodResult.Answers (result, h) := ⟨hc.refl, hresult⟩

/-- A method that answers with what is clear. -/
theorem answer (hv : v.Clear aside h.maps.size) :
    h.Passes aside MethodResult.Answers (some (.ok v), h) := hc.refl.answer hv

/-- A method that makes a list of what is clear. -/
theorem answerList {items : Array Value} (hitems : ∀ v ∈ items, v.Clear aside h.maps.size) :
    h.Passes aside MethodResult.Answers (some (.ok (h.newList items).1), (h.newList items).2) :=
  (hc.newList hitems).answer (Value.NoMap.clear fun _ => Value.noConfusion)

/-- The methods of strings read nothing but the string. -/
theorem stringMethod (cs : List Char) (name : String) (args : List Value) :
    h.Passes aside MethodResult.Answers (h.stringMethod cs name args) := by
  unfold Heap.stringMethod
  split
  · rename_i hplain
    refine hc.reads fun w hw => ?_
    replace hw := Option.some.inj hw
    split at hw
    · exact Except.ok.inj hw ▸ (plainStringMethod?_noMap hplain).clear
    · cases hw
  · split
    · split
      · refine hc.reads fun w hw => ?_
        obtain ⟨_, -, hw⟩ := bind_eq_ok_iff.mp (Option.some.inj hw)
        obtain ⟨_, -, hw⟩ := bind_eq_ok_iff.mp hw
        exact Except.ok.inj hw ▸ (Value.noMap_str _).clear
      · exact hc.reads (by rintro w ⟨⟩)
    · split
      · refine hc.reads fun w hw => ?_
        obtain ⟨_, -, hw⟩ := bind_eq_ok_iff.mp (Option.some.inj hw)
        exact (charAt_noMap hw).clear
      · exact hc.reads (by rintro w ⟨⟩)
    · refine hc.reads fun w hw => ?_
      obtain ⟨_, -, hw⟩ := bind_eq_ok_iff.mp (Option.some.inj hw)
      exact (substring_noMap hw).clear
    · split
      · split
        · split
          · exact hc.reads (by rintro w ⟨⟩)
          · split
            · rename_i hsearch
              exact hc.answer (searchMethod_noMap hsearch).clear
            -- the pieces of a string are strings
            · refine hc.answerList fun w hw => ?_
              obtain ⟨piece, -, rfl⟩ := List.mem_map.mp (List.mem_toArray.mp hw)
              exact (Value.noMap_str _).clear
        · exact hc.reads (by rintro w ⟨⟩)
      · exact hc.reads (by rintro w ⟨⟩)

variable {args : List Value} (hargs : ∀ v ∈ args, v.Clear aside h.maps.size)

include hargs

/-- What a method of a list answers with is an item, or no map; what it stores was given to it. -/
theorem listMethod (id : ListId) (name : String) :
    h.Passes aside MethodResult.Answers (h.listMethod id name args) := by
  unfold Heap.listMethod
  dsimp only
  split
  · exact hc.answer (Value.noMap_ofNat _).clear
  · exact hc.answer (Value.noMap_bool _).clear
  · refine hc.reads fun w hw => ?_
    obtain ⟨_, -, hw⟩ := bind_eq_ok_iff.mp (Option.some.inj hw)
    split at hw
    · rename_i hitem
      exact Except.ok.inj hw ▸ hc.item (Array.mem_of_getElem? hitem)
    · cases hw
  · exact hc.answer (Value.noMap_bool _).clear
  · exact hc.answer (Value.noMap_ofPosition? _).clear
  -- `add` stores its argument
  · rename_i item
    refine Onward.answer (hc.setList fun w hw => ?_) (Value.noMap_bool _).clear
    rcases Array.mem_push.mp hw with hw | rfl
    · exact hc.item hw
    · exact hargs _ List.mem_cons_self
  -- `set` stores its second argument, and answers with what was there
  · rename_i index item
    split
    · exact hc.reads (by rintro w ⟨⟩)
    · rename_i i _
      split
      · rename_i hold
        have honward : h.Onward aside (h.setList id ((h.list id).setIfInBounds i item)) := by
          refine hc.setList fun w hw => ?_
          rcases Array.mem_or_eq_of_mem_setIfInBounds hw with hw | rfl
          · exact hc.item hw
          · exact hargs _ (List.mem_cons_of_mem _ List.mem_cons_self)
        exact honward.answer ((hc.item (Array.mem_of_getElem? hold)).mono honward.size)
      · exact hc.reads (by rintro w ⟨⟩)
  -- `remove` answers with what was there, and the other items stay
  · split
    · exact hc.reads (by rintro w ⟨⟩)
    · split
      · rename_i hold
        refine Onward.answer (hc.setList fun w hw => ?_) (hc.item (Array.mem_of_getElem? hold))
        have hmem : w ∈ h.list id :=
          Array.mem_toList_iff.mp (List.mem_of_mem_eraseIdx (List.mem_toArray.mp hw))
        exact hc.item hmem
      · exact hc.reads (by rintro w ⟨⟩)
  · refine hc.reads fun w hw => ?_
    obtain ⟨_, -, rfl⟩ := map_eq_ok_iff.mp (Option.some.inj hw)
    exact (Value.noMap_str _).clear
  · exact hc.reads (by rintro w ⟨⟩)

/-- A method of a map may change this map. What it answers with is an entry, or was given to it. -/
theorem mapMethod {id : MapId} (hid : ¬ aside id) (name : String) :
    h.Passes aside MethodResult.Answers (h.mapMethod id name args) := by
  unfold Heap.mapMethod
  dsimp only
  split
  · exact hc.answer (Value.noMap_ofNat _).clear
  · exact hc.answer (Value.noMap_bool _).clear
  · exact hc.answer (hc.getD Value.noMap_null.clear)
  · exact hc.answer (hc.getD (hargs _ (List.mem_cons_of_mem _ List.mem_cons_self)))
  · exact hc.answer (Value.noMap_bool _).clear
  · exact hc.answer (Value.noMap_bool _).clear
  -- `put` and `remove` leave a map that is locked as it is.
  · rename_i key value
    have honward : h.Onward aside (h.setMap id ((h.map id).insert (h.text key) value)) := by
      refine hc.setMap hid fun e he => ?_
      rcases Assoc.mem_write he with rfl | he
      · exact hargs _ (List.mem_cons_of_mem _ List.mem_cons_self)
      · exact hc.stored _ (.entry he)
    split
    · exact hc.reads (by rintro w ⟨⟩)
    · exact honward.answer ((hc.getD Value.noMap_null.clear).mono honward.size)
  · rename_i key
    have honward : h.Onward aside (h.setMap id ((h.map id).erase (h.text key))) :=
      hc.setMap hid fun e he => hc.stored _ (.entry (List.mem_of_mem_filter he))
    split
    · exact hc.reads (by rintro w ⟨⟩)
    · exact honward.answer ((hc.getD Value.noMap_null.clear).mono honward.size)
  -- what is left makes a list of what is in the map
  · refine hc.answerList fun w hw => ?_
    obtain ⟨key, -, rfl⟩ := List.mem_map.mp (List.mem_toArray.mp hw)
    exact (Value.noMap_str _).clear
  · refine hc.answerList fun w hw => ?_
    obtain ⟨key, -, rfl⟩ := List.mem_map.mp (List.mem_toArray.mp hw)
    exact (Value.noMap_str _).clear
  · refine hc.answerList fun w hw => ?_
    obtain ⟨e, he, rfl⟩ := List.mem_map.mp (List.mem_toArray.mp hw)
    exact hc.stored _ (.entry he)
  · exact hc.reads (by rintro w ⟨⟩)

variable {operations : Assoc Operation}
  (honest : ∀ name operation, operations.get? name = some operation → operation.Honest)

include honest

/-- A method of a host object does what the operation behind it does. -/
theorem objectMethod (id : ObjectId) (name : String) :
    h.Passes aside MethodResult.Answers (h.objectMethod operations id name args) := by
  unfold Heap.objectMethod
  split
  · exact hc.reads (by rintro w ⟨⟩)
  -- what an operation of the host may do is what being honest says
  · rename_i operation hfound
    obtain ⟨key, -, hget⟩ := Option.bind_eq_some_iff.mp hfound
    obtain ⟨honward, hresult⟩ := honest key operation hget aside args h hc hargs
    split
    · rename_i hrun
      rw [hrun] at honward hresult
      exact ⟨honward, fun w hw => hresult w (by cases hw; rfl)⟩
    · rename_i hrun
      rw [hrun] at honward
      exact ⟨honward, by rintro w ⟨⟩⟩

/-- **Methods reach nothing but what they are given**, and what they get to from there. -/
theorem callMethod {target : Value} (htarget : target.Clear aside h.maps.size) (name : String) :
    h.Passes aside MethodResult.Answers (h.callMethod operations target name args) := by
  have hown : h.Passes aside MethodResult.Answers (h.ownMethod operations target name args) := by
    cases target with
    | str s => exact hc.stringMethod _ _ _
    | list id => exact hc.listMethod hargs id name
    | map id => exact hc.mapMethod hargs (htarget id rfl).2 name
    | range r => exact hc.reads fun w hw => (Heap.rangeMethod_noMap hw).clear
    | object id => exact hc.objectMethod hargs honest id name
    | int | long | float | double =>
      refine hc.reads fun w hw => ?_
      obtain ⟨_, hnumber, hok⟩ := Option.map_eq_some_iff.mp hw
      exact Except.ok.inj hok ▸ (Heap.numberMethod_noMap hnumber).clear
    | null | bool | iter | status => exact hc.reads (by rintro w ⟨⟩)
  unfold Heap.callMethod
  -- what a method of the kind of value does not answer is left to the methods of all values
  split
  · rename_i h' hnone
    rw [hnone] at hown
    exact ⟨hown.onward, fun w hw => (Heap.commonMethod_noMap hw).clear⟩
  · exact hown

end Heap.Clear

end Stencil
