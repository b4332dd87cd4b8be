import Mathlib
import Stencil.Proofs.Render.Executed
import Stencil.Proofs.Render.Frames
import Stencil.Proofs.Value.Ranges

/-!
# The turns of a loop over a collection

What a loop walks over is settled when it begins: the items of a list, one new map for every entry
of a map, the elements of a range, nothing for null, and any other single value
(`Heap.entries`). A walk then gives these values one after the other, whatever becomes of the heap
in between (`Walk.Gives`).

A **turn** binds the next entry and a new loop status, and runs the body. If no turn ends the loop,
by an error, a `#break` or a `#return`, then the turns follow one another: each starts from what is
left behind the one before it, where a `#continue` has been taken up (`Walker.turns`).

Main definitions: `Heap.entries`, `Turn`, `Walker`.
Main statements: `Walk.ofValue_gives`, `Walker.walkTurns_eq`.
-/

namespace Stencil

open Render

/-! ### Entries -/

/-- The map that stands for an entry of a map. -/
def entryRecord (entry : String × Value) : Assoc Value :=
  .ofList [("key", .str entry.1), ("value", entry.2)]

/-- What a loop over a value walks over, in a heap. The maps that stand for the entries of a map are
the next ones to be made. -/
def Heap.entries (h : Heap) : Value → List Value
  | .null => []
  | .list id => (h.list id).toList
  | .map id => (List.range (h.map id).size).map fun k => .map ⟨h.maps.size + k⟩
  | .range r => r.toList.map .int
  | v => [v]

/-- The heap with the maps that a loop over a value makes. -/
def Heap.withEntries (h : Heap) : Value → Heap
  | .map id => { h with maps := h.maps ++ ((h.map id).entries.map entryRecord).toArray }
  | _ => h

/-- A walk that gives some values, of so many in all, whatever becomes of the heap. -/
inductive Walk.Gives (size : Nat) : Walk → List Value → Prop
  | done {walk : Walk} : (∀ h, walk.next? h = (none, h)) → (∀ h, walk.hasNext h = false) →
      Gives size walk []
  | next {walk rest : Walk} {v : Value} {vs : List Value} :
      (∀ h, walk.next? h = (some (v, rest), h)) → (∀ h, walk.hasNext h = true) →
      rest.size? = some size → Gives size rest vs → Gives size walk (v :: vs)

namespace Walk

variable {size : Nat} {walk : Walk} {vs : List Value}

/-- A walk has a next value if it gives any. -/
theorem Gives.hasNext (hgives : walk.Gives size vs) (h : Heap) :
    walk.hasNext h = !vs.isEmpty := by
  cases hgives with
  | done _ hnone => rw [hnone]; rfl
  | next _ hsome => rw [hsome]; rfl

/-- The items of a list are given one after the other. -/
theorem items_gives (size : Nat) (vs : List Value) : (Walk.items vs size).Gives size vs := by
  induction vs with
  | nil => exact .done (fun _ => rfl) fun _ => rfl
  | cons v vs ih => exact .next (fun _ => rfl) (fun _ => rfl) rfl ih

/-- A range is walked by index, up to its size. -/
theorem range_gives (r : IntRange) {next count : Nat} (h : next + count = r.size) :
    (Walk.range r next).Gives r.size ((r.take next count).map .int) := by
  -- by induction on how many elements are still to come
  induction count generalizing next with
  | zero =>
    have hnone : r.get? next = none := IntRange.get?_eq_none_iff.2 (by omega)
    refine .done (fun h => by rw [next?, hnone]) fun _ => ?_
    rw [Walk.hasNext, decide_eq_false_iff_not]
    omega
  | succ count ih =>
    have hlt : next < r.size := by omega
    have hsome : r.get? next = some (.ofInt (r.offsetFrom next)) :=
      IntRange.get?_of_lt hlt
    rw [IntRange.take, hsome]
    exact .next (fun h => by rw [next?, hsome]) (fun _ => decide_eq_true hlt) rfl
      (ih (by omega))

/-- The maps for entries are made in a row. -/
theorem entriesOf_eq (entries : List (String × Value)) (h : Heap) :
    entriesOf entries h =
      ((List.range entries.length).map fun k => .map ⟨h.maps.size + k⟩,
        { h with maps := h.maps ++ (entries.map entryRecord).toArray }) := by
  -- by induction on the entries: the first takes the next number, and the rest the numbers behind
  -- it
  induction entries generalizing h with
  | nil => simp [entriesOf]
  | cons e entries ih =>
    obtain ⟨key, value⟩ := e
    rw [entriesOf, entryOf, Heap.newMap]
    simp only [ih, List.length_cons, List.range_succ_eq_map, List.map_cons, List.map_map,
      Array.size_push, Prod.mk.injEq]
    constructor
    · simp only [Nat.add_zero, List.cons.injEq, true_and]
      refine List.map_congr_left fun k _ => ?_
      simp only [Function.comp_apply, Value.map.injEq, MapId.mk.injEq]
      omega
    · congr 1
      apply Array.ext'
      simp [entryRecord]

/-- **A loop walks over the entries** that the value has when it begins. -/
theorem ofValue_gives {v : Value} (hv : ∀ id, v ≠ .iter id) (h : Heap) :
    ∃ walk, ofValue v h = (walk, h.withEntries v) ∧
      walk.Gives (h.entries v).length (h.entries v) ∧ walk.size? = some (h.entries v).length := by
  -- an iterator is walked as it goes, and all others from what they hold
  cases v with
  | iter id => exact absurd rfl (hv id)
  | map id =>
    refine ⟨_, ?_, items_gives _ _, rfl⟩
    rw [ofValue, entriesOf_eq]
    rfl
  | range r =>
    have hlength : (h.entries (.range r)).length = r.size :=
      (List.length_map _).trans r.length_toList
    rw [hlength]
    exact ⟨.range r 0, rfl, range_gives r (Nat.zero_add _), rfl⟩
  | null | list | bool | int | long | float | double | str | status | object =>
    exact ⟨_, rfl, items_gives _ _, rfl⟩

end Walk

/-! ### Turns -/

/-- A run of the body of a loop: the state it starts in, how it ends, and the state behind it. -/
structure Turn where
  start : RenderState
  result : Except Stop Unit
  after : RenderState

namespace Turn

/-- The loop goes on behind the turn: neither an error nor a `#break` nor a `#return` ends it. -/
def GoesOn (t : Turn) : Prop :=
  t.result = .ok () ∧
    (t.after.memory.control.jump = .none ∨ t.after.memory.control.jump = .continue)

instance (t : Turn) : Decidable t.GoesOn := inferInstanceAs (Decidable (_ ∧ _))

/-- What is left behind a turn: no jump is pending. -/
def left (t : Turn) : RenderState := ((setJump .none).runOn t.after).2

end Turn

/-- A loop over a collection, as far as its turns have it in common: the name of its item, its
frame, the number of its entries, and the status of the loop around it. -/
structure Walker where
  item : String
  frame : ScopeId
  size : Nat
  outer : Value

namespace Walker

variable (w : Walker)

/-- The status of a turn. -/
def status (index : Nat) : LoopStatus :=
  ⟨index, .walking (some w.size) (index + 1 = w.size), w.outer⟩

/-- The state that the body starts in: the item is bound, and then the variable `for`. -/
def enter (index : Nat) (entry : Value) (st : RenderState) : RenderState :=
  { st with memory := { st.memory with
      heap := (st.memory.heap.newStatus (w.status index)).2
      scopes := (st.memory.scopes.bind w.frame w.item entry).bind w.frame "for"
        (st.memory.heap.newStatus (w.status index)).1 } }

/-- A turn: the run of the body behind what it starts with. -/
def turn (body : RenderState → Except Stop Unit × RenderState) (index : Nat) (entry : Value)
    (st : RenderState) : Turn :=
  ⟨w.enter index entry st, (body (w.enter index entry st)).1, (body (w.enter index entry st)).2⟩

/-- The turns of a loop, from one of its entries on, if none of them ends it. -/
def turns (body : RenderState → Except Stop Unit × RenderState) :
    Nat → List Value → RenderState → List Turn
  | _, [], _ => []
  | index, entry :: rest, st =>
    w.turn body index entry st :: turns body (index + 1) rest (w.turn body index entry st).left

/-- What is left behind turns. -/
def leftBehind (turns : List Turn) (st : RenderState) : RenderState :=
  turns.foldl (fun _ t => t.left) st

variable {body : RenderState → Except Stop Unit × RenderState}

/-- There are as many turns as entries. -/
theorem length_turns (index : Nat) (entries : List Value) (st : RenderState) :
    (w.turns body index entries st).length = entries.length := by
  induction entries generalizing index st with
  | nil => rfl
  | cons entry rest ih => exact congrArg Nat.succ (ih _ _)

/-- **Turns keep an invariant.** What holds when the turns begin, and goes over from what is left
behind the one turn to what is left behind the next one, holds in front of each of them. -/
theorem turns_invariant {I : Nat → RenderState → Prop} {index : Nat} {entries : List Value}
    {st : RenderState} (hstart : I index st)
    (hturn : ∀ k entry st, entries[k]? = some entry → I (index + k) st →
      I (index + k + 1) (w.turn body (index + k) entry st).left)
    {k : Nat} {entry : Value} (hentry : entries[k]? = some entry) :
    ∃ st', I (index + k) st' ∧
      (w.turns body index entries st)[k]? = some (w.turn body (index + k) entry st') := by
  -- by induction on the entries, with the turns that begin behind the first one
  induction entries generalizing index st k with
  | nil => cases hentry
  | cons first rest ih =>
    cases k with
    | zero =>
      obtain rfl := Option.some.inj hentry
      exact ⟨st, hstart, rfl⟩
    | succ k =>
      have hnext := hturn 0 first st rfl hstart
      have hindex (j : Nat) : index + 1 + j = index + (j + 1) := by omega
      rw [← hindex]
      refine ih hnext (fun j e st' he hst' => ?_) hentry
      rw [hindex] at hst' ⊢
      exact hturn (j + 1) e st' he hst'

end Walker

/-- The moment is the execution of a statement. -/
def Moment.isExecution (moment : Moment) : Bool := moment.statement?.isSome

/-- The executions of statements among some moments. -/
def executions (record : List Moment) : List Moment := record.filter Moment.isExecution

theorem executions_append (l l' : List Moment) :
    executions (l ++ l') = executions l ++ executions l' := List.filter_append ..

/-- What a loop does behind the body of a turn: it is over, or goes on with the next turn. -/
def Recorded.goOn (next : Recorded RenderState Stop Bool) : Recorded RenderState Stop Bool := do
  if ← silent takeLoopJump then return true else next

/-- Behind a turn that does not end the loop, the next turn follows. -/
theorem Recorded.goOn_eq {st : RenderState} (next : Recorded RenderState Stop Bool)
    (h : st.memory.control.jump = .none ∨ st.memory.control.jump = .continue) :
    (goOn next).outcome st = next.outcome ((setJump .none).runOn st).2 ∧
      (goOn next).record st = next.record ((setJump .none).runOn st).2 := by
  obtain ⟨⟨heap, scopes, ⟨jump, policy, nullSafe⟩⟩, output, library, files⟩ := st
  rcases h with h | h
  · obtain rfl : jump = .none := h
    exact ⟨rfl, rfl⟩
  · obtain rfl : jump = .continue := h
    exact ⟨rfl, rfl⟩

namespace Walker

variable {w : Walker} {x : Recorded RenderState Stop Unit}

/-- A turn that is not the last one of a walk: it binds the entry and the status, then runs the
body, and then the loop goes on or is over. -/
theorem walkTurns_next {fuel index : Nat} {walk rest : Walk} {entry : Value} {st : RenderState}
    (hnext : ∀ h, walk.next? h = (some (entry, rest), h)) (hsize : rest.size? = some w.size)
    (hlast : ∀ h, (!rest.hasNext h) = decide (index + 1 = w.size)) :
    let turn := x >>= fun _ => Recorded.goOn
      (Recorded.walkTurns w.item w.frame w.outer x fuel rest (index + 1))
    let whole := Recorded.walkTurns w.item w.frame w.outer x (fuel + 1) walk index
    whole.outcome st = turn.outcome (w.enter index entry st) ∧
      executions (whole.record st) = executions (turn.record (w.enter index entry st)) := by
  intro turn whole
  -- the walk gives the entry, which binds it and the status before the body begins
  have hgiven : (Recorded.silent (ofEval (Eval.onHeap walk.next?))).outcome st =
      (.ok (some (entry, rest)), st) := by
    change (Except.ok (walk.next? st.memory.heap).1,
      { st with memory := { st.memory with heap := (walk.next? st.memory.heap).2 } }) = _
    rw [hnext]
  have hstatus : (⟨index, .walking rest.size? (!rest.hasNext st.memory.heap), w.outer⟩ :
      LoopStatus) = w.status index := by
    rw [hsize, hlast]
    rfl
  constructor
  · change (Recorded.walkTurns w.item w.frame w.outer x (fuel + 1) walk index).outcome st = _
    rw [Recorded.walkTurns, Recorded.outcome_bind, hgiven, enter, ← hstatus]
    rfl
  · change executions
      ((Recorded.walkTurns w.item w.frame w.outer x (fuel + 1) walk index).record st) = _
    rw [Recorded.walkTurns, Recorded.record_bind, hgiven, enter, ← hstatus]
    rfl

/-- **The turns of a walk follow one another**, if none of them ends the loop: the loop is over when
the walk gives nothing more, and the statements that are executed are those of the turns. -/
theorem walkTurns_eq {fuel index : Nat} {walk : Walk} {entries : List Value} {st : RenderState}
    (hgives : walk.Gives w.size entries) (hsize : index + entries.length = w.size)
    (hfuel : entries.length < fuel)
    (hall : ∀ t ∈ w.turns x.outcome index entries st, t.GoesOn) :
    (Recorded.walkTurns w.item w.frame w.outer x fuel walk index).outcome st =
        (.ok (decide (0 < w.size)), leftBehind (w.turns x.outcome index entries st) st) ∧
      executions ((Recorded.walkTurns w.item w.frame w.outer x fuel walk index).record st) =
        (w.turns x.outcome index entries st).flatMap fun t => executions (x.record t.start) := by
  -- by induction on what the walk gives
  induction hgives generalizing fuel index st with
  | @done walk hnext _ =>
    obtain ⟨fuel, rfl⟩ := Nat.exists_eq_succ_of_ne_zero (Nat.ne_of_gt hfuel)
    obtain rfl : index = w.size := hsize
    have hgiven : (Recorded.silent (ofEval (Eval.onHeap walk.next?))).outcome st =
        (.ok none, st) := by
      change (Except.ok (walk.next? st.memory.heap).1,
        { st with memory := { st.memory with heap := (walk.next? st.memory.heap).2 } }) = _
      rw [hnext]
    rw [Recorded.walkTurns, Recorded.outcome_bind, Recorded.record_bind, hgiven]
    exact ⟨rfl, rfl⟩
  | @next walk rest entry entries hnext _ hrest hgives ih =>
    obtain ⟨fuel, rfl⟩ := Nat.exists_eq_succ_of_ne_zero (Nat.ne_of_gt (Nat.zero_lt_of_lt hfuel))
    obtain ⟨⟨hok, hjump⟩, hlater⟩ := List.forall_mem_cons.mp hall
    -- a turn is the last one if the walk has nothing more to give
    have hlast (h : Heap) : (!rest.hasNext h) = decide (index + 1 = w.size) := by
      rw [hgives.hasNext, ← hsize, Bool.not_not, Bool.eq_iff_iff]
      simp
    obtain ⟨houtcome, hrecord⟩ :=
      @walkTurns_next w x fuel index walk rest entry st hnext hrest hlast
    -- the first turn, and by induction all others from what it leaves behind
    have hbody : x.outcome (w.enter index entry st) =
        (.ok (), (w.turn x.outcome index entry st).after) := Prod.ext hok rfl
    have hmore : index + 1 + entries.length = w.size := by
      rw [← hsize, List.length_cons]
      omega
    obtain ⟨hgo, hgorecord⟩ := Recorded.goOn_eq
      (Recorded.walkTurns w.item w.frame w.outer x fuel rest (index + 1)) hjump
    obtain ⟨ihoutcome, ihrecord⟩ := ih hmore (Nat.lt_of_succ_lt_succ hfuel) hlater
    rw [houtcome, hrecord, Recorded.outcome_bind, Recorded.record_bind, hbody]
    dsimp only
    rw [hgo, hgorecord, executions_append]
    exact ⟨ihoutcome, congrArg _ ihrecord⟩

end Walker

end Stencil
