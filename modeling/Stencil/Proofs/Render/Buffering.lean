import Stencil.Proofs.Render.Delivery

/-!
# A buffer keeps account

An output is handed pieces of text and values, and is told now and then to flush what it holds. Any
of these calls may fail, since the sink may refuse a chunk at any point. Whatever has failed before,
the sink has received, and the buffer holds back, exactly the pieces whose calls have succeeded, in
their order: nothing is lost, repeated or moved, and no part of a piece whose call has failed is
left anywhere.

What the sink has received, followed by what the buffer holds back, is the **account** of a buffer.
A call adds its piece to the account if it succeeds, and nothing if it fails
(`OutputCall.account_on`); this holds of any sequence of calls by induction (`account_run`).

Main definitions: `BufferedSink.account`, `OutputCall`, `accepted`.
Main statements: `BufferedSink.drain_cases`, `BufferedSink.account_write`, `buffer_keeps_account`.
-/

namespace Stencil

/-- What a call has handed over: its piece if it has succeeded, and nothing if it has failed. -/
def granted (result : Except IoFault Unit) (piece : String) : String :=
  match result with
  | .ok () => piece
  | .error _ => ""

/-- A sink takes a chunk as a whole, or keeps what it has. -/
theorem ByteSink.text_write (sink : ByteSink) (chunk : String) :
    (sink.write chunk).2.text = sink.text ++ granted (sink.write chunk).1 chunk := by
  rcases hwrite : sink.write chunk with ⟨_ | _, after⟩
  · exact (write_error hwrite).2.trans String.append_empty.symm
  · exact write_ok hwrite

/-! ### Buffers -/

namespace BufferedSink

/-- What a buffer has taken: what its sink has received, and what it holds back. -/
def account (b : BufferedSink) : String := b.sink.text ++ b.pending

/-- Emptying a buffer hands all of it to the sink, or leaves it as it is. -/
theorem drain_cases (b : BufferedSink) :
    (∃ sink, b.drain = (.ok (), { b with sink, pending := "" }) ∧ sink.text = b.account) ∨
      ∃ fault sink, b.drain = (.error fault, { b with sink }) ∧ sink.text = b.sink.text := by
  unfold drain
  split
  · rename_i hempty
    refine .inl ⟨b.sink, ?_, ?_⟩
    · rw [← hempty]
    · rw [account, hempty, String.append_empty]
  · rcases hwrite : b.sink.write b.pending with ⟨fault | _, sink⟩
    · exact .inr ⟨fault, sink, rfl, (ByteSink.write_error hwrite).2⟩
    · exact .inl ⟨sink, rfl, ByteSink.write_ok hwrite⟩

/-- A write adds its piece to the account, or nothing. -/
theorem account_write (b : BufferedSink) (piece : String) :
    (b.write piece).2.account = b.account ++ granted (b.write piece).1 piece := by
  unfold write
  split
  · exact String.append_assoc.symm
  -- Otherwise the buffer is emptied first, and the piece is buffered or goes past it.
  · obtain ⟨sink, hdrain, htext⟩ | ⟨fault, sink, hdrain, htext⟩ := b.drain_cases
    · rw [hdrain]
      dsimp only
      split
      · change (sink.write piece).2.text ++ "" = _
        rw [String.append_empty, sink.text_write, htext]
      · change sink.text ++ ("" ++ piece) = _
        rw [String.empty_append, htext]
        rfl
    · rw [hdrain]
      change sink.text ++ b.pending = b.account ++ ""
      rw [htext, String.append_empty]
      rfl

/-- A flush changes nothing in the account. -/
theorem account_flush (b : BufferedSink) : b.flush.2.account = b.account := by
  unfold flush
  obtain ⟨sink, hdrain, htext⟩ | ⟨fault, sink, hdrain, htext⟩ := b.drain_cases
  · rw [hdrain]
    change sink.flush.2.text ++ "" = _
    rw [String.append_empty, sink.text_flush, htext]
  · rw [hdrain]
    change sink.text ++ b.pending = _
    rw [htext]
    rfl

/-- After a flush that went well, the sink has received the account. -/
theorem text_flush_ok {b : BufferedSink} (h : b.flush.1 = .ok ()) :
    b.flush.2.pending = "" ∧ b.flush.2.sink.text = b.account := by
  have hpending := flush_pending h
  have haccount := b.account_flush
  rw [account, hpending, String.append_empty] at haccount
  exact ⟨hpending, haccount⟩

/-- A sink that is given up has received the account. -/
theorem text_release {b : BufferedSink} {sink : ByteSink} (h : b.release = .ok sink) :
    sink.text = b.account := by
  unfold release at h
  obtain ⟨sink', hdrain, htext⟩ | ⟨fault, sink', hdrain, -⟩ := b.drain_cases
  · rw [hdrain] at h
    cases h
    exact htext
  · rw [hdrain] at h
    cases h

/-- A buffer of a capacity, with no more in it than it holds. -/
structure Within (capacity : Nat) (b : BufferedSink) : Prop where
  capacity_eq : b.capacity = capacity
  pending_le : b.pending.utf8ByteSize ≤ capacity

namespace Within

variable {capacity : Nat} {b : BufferedSink}

/-- A new buffer holds nothing, and has at least the smallest capacity. -/
theorem ofSink (sink : ByteSink) (capacity : Nat) :
    (BufferedSink.ofSink sink capacity).Within (max capacity minCapacity) :=
  ⟨rfl, Nat.zero_le _⟩

/-- A write keeps the buffer within its capacity. -/
theorem write (h : b.Within capacity) (piece : String) : (b.write piece).2.Within capacity := by
  obtain ⟨rfl, hpending⟩ := h
  unfold BufferedSink.write
  split
  · rename_i hfits
    refine ⟨rfl, ?_⟩
    change (b.pending ++ piece).utf8ByteSize ≤ b.capacity
    rwa [String.utf8ByteSize_append]
  -- either the buffer was drained first, or draining it has failed
  · obtain ⟨sink, hdrain, -⟩ | ⟨fault, sink, hdrain, -⟩ := b.drain_cases
    · rw [hdrain]
      dsimp only
      split
      · exact ⟨rfl, Nat.zero_le _⟩
      · -- A piece that is buffered now is shorter than the buffer, which is empty.
        rename_i hshort
        refine ⟨rfl, ?_⟩
        change ("" ++ piece).utf8ByteSize ≤ b.capacity
        rw [String.empty_append]
        exact Nat.le_of_lt (Nat.not_le.mp hshort)
    -- a buffer that could not be drained is empty, and the piece is not in it
    · rw [hdrain]
      exact ⟨rfl, hpending⟩

/-- So does a flush. -/
theorem flush (h : b.Within capacity) : b.flush.2.Within capacity := by
  obtain ⟨rfl, hpending⟩ := h
  unfold BufferedSink.flush
  obtain ⟨sink, hdrain, -⟩ | ⟨fault, sink, hdrain, -⟩ := b.drain_cases
  · rw [hdrain]
    exact ⟨rfl, Nat.zero_le _⟩
  · rw [hdrain]
    exact ⟨rfl, hpending⟩

end Within

end BufferedSink

/-! ### Calls -/

/-- What an output is asked to do. -/
inductive OutputCall where
  | write (piece : String)
  | writeValue (h : Heap) (v : Value)
  | flush

namespace OutputCall

/-- The text that a call hands in. -/
def piece : OutputCall → String
  | write piece => piece
  | writeValue h v => if v.isNull then "" else h.text v
  | flush => ""

/-- Does what a call asks for. -/
def on : OutputCall → Output → Except IoFault Unit × Output
  | write piece, o => o.write piece
  | writeValue h v, o => o.writeValue h v
  | flush, o => o.flush

/-- Does what calls ask for, one after the other; answers with how each of them has ended. -/
def run : List OutputCall → Output → List (OutputCall × Except IoFault Unit) × Output
  | [], o => ([], o)
  | call :: rest, o =>
    let (result, o) := call.on o
    let (log, o) := run rest o
    ((call, result) :: log, o)

/-- **One call.** A buffer stays one, its account grows by what the call hands over, and it holds
no more than before it could. -/
theorem account_on {capacity : Nat} {b : BufferedSink} (h : b.Within capacity) (call : OutputCall) :
    ∃ after, (call.on (.bytes b)).2 = .bytes after ∧ after.Within capacity ∧
      after.account = b.account ++ granted (call.on (.bytes b)).1 call.piece := by
  cases call with
  | write piece => exact ⟨_, rfl, h.write piece, b.account_write piece⟩
  | writeValue heap v =>
    by_cases hnull : v.isNull = true
    · simp only [on, piece, Output.writeValue, if_pos hnull]
      exact ⟨b, rfl, h, String.append_empty.symm⟩
    · simp only [on, piece, Output.writeValue, if_neg hnull]
      exact ⟨_, rfl, h.write _, b.account_write _⟩
  | flush =>
    refine ⟨_, rfl, h.flush, b.account_flush.trans ?_⟩
    -- a flush hands over no text, whether it fails or not
    have hnothing : granted b.flush.1 "" = "" := by
      rcases b.flush.1 with _ | _ <;> rfl
    exact (String.append_empty.symm).trans (congrArg (b.account ++ ·) hnothing.symm)

end OutputCall

/-- The pieces of the calls that have succeeded, in their order. -/
def accepted (log : List (OutputCall × Except IoFault Unit)) : String :=
  String.join ((log.filter (·.2.isOk)).map (·.1.piece))

/-- What a first call hands over comes first. -/
theorem accepted_cons (call : OutputCall) (result : Except IoFault Unit)
    (log : List (OutputCall × Except IoFault Unit)) :
    accepted ((call, result) :: log) = granted result call.piece ++ accepted log := by
  unfold accepted
  rcases result with _ | _
  · exact String.empty_append.symm
  · exact String.join_cons

/-- **A sequence of calls.** The account grows by the pieces of the calls that have succeeded. -/
theorem account_run {capacity : Nat} {b : BufferedSink} (h : b.Within capacity)
    (calls : List OutputCall) :
    ∃ after, (OutputCall.run calls (.bytes b)).2 = .bytes after ∧ after.Within capacity ∧
      after.account = b.account ++ accepted (OutputCall.run calls (.bytes b)).1 := by
  induction calls generalizing b with
  | nil => exact ⟨b, rfl, h, String.append_empty.symm⟩
  | cons call rest ih =>
    obtain ⟨mid, hmid, hwithin, haccount⟩ := call.account_on h
    obtain ⟨after, hafter, hwithin', haccount'⟩ := ih hwithin
    rw [← hmid] at hafter haccount'
    refine ⟨after, hafter, hwithin', ?_⟩
    rw [haccount', haccount, String.append_assoc, ← accepted_cons]
    rfl

/-- **A buffer loses, repeats and moves nothing.** Take a sink that may refuse any offer, a buffer of
any capacity in front of it, and any sequence of writes and flushes, whichever of them fail.

At the end, what the sink has received, followed by what the buffer holds, is what the sink had
before and then the pieces whose calls have succeeded, in their order. The buffer holds no more than
its capacity. A next call that fails leaves all this as it is, and after a flush that goes well, or
when the sink is given up, the sink has received all of it and nothing is held back. -/
theorem buffer_keeps_account (capacity : Nat) (sink : ByteSink) (calls : List OutputCall) :
    let outcome := OutputCall.run calls (.bytes (.ofSink sink capacity))
    let total := sink.text ++ accepted outcome.1
    ∃ b : BufferedSink, outcome.2 = .bytes b ∧
      b.sink.text ++ b.pending = total ∧
      b.pending.utf8ByteSize ≤ max capacity 64 ∧
      (∀ call fault after, OutputCall.on call (.bytes b) = (.error fault, after) →
        after.received ++ after.held = total) ∧
      (b.flush.1 = .ok () → b.flush.2.pending = "" ∧ b.flush.2.sink.text = total) ∧
      ∀ released, b.release = .ok released → released.text = total := by
  intro outcome total
  obtain ⟨b, hb, hwithin, haccount⟩ := account_run (.ofSink sink capacity) calls
  have htotal : b.account = total := by
    rw [haccount]
    exact congrArg (· ++ _) String.append_empty
  -- the account is the sink's text and what is still held, so after a flush it is the sink's text
  refine ⟨b, hb, htotal, hwithin.pending_le, fun call fault after hfailed => ?_, fun hok => ?_,
    fun released hreleased => (BufferedSink.text_release hreleased).trans htotal⟩
  · obtain ⟨b', hb', -, haccount'⟩ := call.account_on hwithin
    rw [hfailed] at hb' haccount'
    obtain rfl : after = .bytes b' := hb'
    exact haccount'.trans (String.append_empty.trans htotal)
  · obtain ⟨hpending, htext⟩ := BufferedSink.text_flush_ok hok
    exact ⟨hpending, htext.trans htotal⟩

/-- A sink that refuses its first chunk, which is the one that would make room for the long piece: no
part of this piece is left, and the two around it arrive with the flush. -/
theorem buffer_keeps_account_refused :
    let sink : ByteSink := { refuses := fun offer => offer == 0 }
    let long := String.ofList (List.replicate 70 'x')
    let calls : List OutputCall := [.write "a", .write long, .writeValue {} (.int 7)]
    let outcome := OutputCall.run calls (.bytes (.ofSink sink 1))
    outcome.1.map (·.2.isOk) = [true, false, true] ∧
      ∃ b : BufferedSink, outcome.2 = .bytes b ∧ b.sink.text ++ b.pending = "a7" ∧
        b.flush.1 = .ok () ∧ b.flush.2.pending = "" ∧ b.flush.2.sink.text = "a7" := by
  intro sink long calls outcome
  -- the second of the three writes is refused
  have hresults : outcome.1.map (·.2.isOk) = [true, false, true] := by decide +kernel
  have htotal : sink.text ++ accepted outcome.1 = "a7" := by decide +kernel
  have hflush : outcome.2.flush.1 = .ok () := by decide +kernel
  obtain ⟨b, hb, haccount, -, -, hflushed, -⟩ := buffer_keeps_account 1 sink calls
  have hok : b.flush.1 = .ok () := by
    rw [show outcome.2 = .bytes b from hb] at hflush
    exact hflush
  obtain ⟨hpending, htext⟩ := hflushed hok
  exact ⟨hresults, b, hb, haccount.trans htotal, hok, hpending, htext.trans htotal⟩

end Stencil
