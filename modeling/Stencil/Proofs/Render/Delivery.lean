import Stencil.Proofs.Render.Coupling

/-!
# What reaches a sink

A render to a sink that may refuse what it is offered is compared with one to an output that takes
any text. The buffer in front of the sink holds text back, so while all goes well the sink has
received a beginning of the text, and the buffer holds the rest (`Delivery.taken`). When the sink
refuses something, what is held back is lost to it, and the sink has received a beginning of the
text all the same (`Delivery.refused`). A sink that refuses nothing is called **steady**.

The comparison is a pair of outputs, `deliveryPair`. It starts from what the sink has received
before the render.

Main definitions: `Output.Steady`, `Output.held`, `Delivery`, `deliveryPair`.
Main statements: `Output.write_delivery`, `Output.flush_delivery` (a piece and a flush lose nothing
and change no order), `Compiled.render_held` (a render that ends well holds nothing back).
-/

namespace Stencil

open Render

/-! ### Steady sinks -/

/-- A text sink that refuses nothing. -/
def TextSink.Steady (sink : TextSink) : Prop := sink.room = none ∧ ∀ n, sink.refuses n = false

/-- A byte sink that refuses nothing. -/
def ByteSink.Steady (sink : ByteSink) : Prop := sink.room = none ∧ ∀ n, sink.refuses n = false

/-- An output whose sink refuses nothing. -/
def Output.Steady : Output → Prop
  | .text sink => sink.Steady
  | .bytes b | .file _ b => b.sink.Steady

/-- What an output has taken and its sink has yet to get. -/
def Output.held : Output → String
  | .text _ => ""
  | .bytes b | .file _ b => b.pending

/-- Being refused something shows that a sink is not steady. -/
theorem not_steady_of_refused {room : Option Nat} {refuses : Nat → Bool} {offers used more : Nat}
    (h : ¬ (!refuses offers && fits room used more) = true) :
    ¬ (room = none ∧ ∀ n, refuses n = false) := by
  rintro ⟨rfl, hrefuses⟩
  refine h ?_
  rw [hrefuses offers]
  rfl

/-- What becomes of a text that an output is to hand on: what the sink has received before, whether
it is steady, and then the result, what the sink has received and what is held back. -/
inductive Delivery (before text : String) (steady : Prop) :
    Except IoFault Unit → String → String → Prop where
  /-- A beginning of the text has reached the sink, and the rest is held back. -/
  | taken (delivered : String) {received held : String} : received = before ++ delivered →
      text = delivered ++ held → Delivery before text steady (.ok ()) received held
  /-- A beginning of the text has reached the sink, which has refused more of it. -/
  | refused (delivered rest : String) {fault : IoFault} {received held : String} : ¬ steady →
      received = before ++ delivered → text = delivered ++ rest →
      Delivery before text steady (.error fault) received held

/-- A steady sink loses nothing: what it has received and what is held back is all there is. -/
theorem Delivery.of_steady {before text received held : String} {steady : Prop}
    {result : Except IoFault Unit} (h : Delivery before text steady result received held)
    (hsteady : steady) : result = .ok () ∧ received ++ held = before ++ text := by
  cases h with
  | taken delivered hreceived htext =>
    exact ⟨rfl, by rw [hreceived, htext, String.append_assoc]⟩
  | refused _ _ hnot => exact absurd hsteady hnot

/-! ### Text sinks -/

/-- A text sink receives a piece, or refuses it and what comes behind. -/
theorem TextSink.write_delivery (sink : TextSink) (piece : String) :
    Delivery sink.text piece sink.Steady (sink.write piece).1 (sink.write piece).2.text "" := by
  unfold TextSink.write
  split
  · exact .taken piece rfl (String.append_empty).symm
  · rename_i hrefused
    exact .refused "" piece (not_steady_of_refused hrefused) (String.append_empty).symm
      (String.empty_append).symm

/-- A write does not change whether a text sink is steady. -/
theorem TextSink.steady_write (sink : TextSink) (piece : String) :
    (sink.write piece).2.Steady ↔ sink.Steady := by
  unfold TextSink.write
  split <;> exact Iff.rfl

/-! ### Byte sinks -/

namespace ByteSink

/-- A chunk that is refused changes nothing of what the sink has received. -/
theorem write_error {sink after : ByteSink} {chunk : String} {fault : IoFault}
    (h : sink.write chunk = (.error fault, after)) : ¬ sink.Steady ∧ after.text = sink.text := by
  unfold write at h
  split at h
  · cases h
  · rename_i hrefused
    cases h
    exact ⟨not_steady_of_refused hrefused, rfl⟩

/-- Nor does it change it for a sink of bytes. -/
theorem steady_write (sink : ByteSink) (chunk : String) :
    (sink.write chunk).2.Steady ↔ sink.Steady := by
  unfold write
  split <;> exact Iff.rfl

theorem steady_flush (sink : ByteSink) : sink.flush.2.Steady ↔ sink.Steady := by
  unfold flush
  split <;> exact Iff.rfl

/-- A flush does not change what a sink has received. -/
theorem text_flush (sink : ByteSink) : sink.flush.2.text = sink.text := by
  unfold flush
  split <;> rfl

/-- A flush fails only if the sink is not steady. -/
theorem flush_error {sink after : ByteSink} {fault : IoFault}
    (h : sink.flush = (.error fault, after)) : ¬ sink.Steady := by
  unfold flush at h
  split at h
  · rename_i hrefused
    rintro ⟨_, hrefuses⟩
    rw [hrefuses] at hrefused
    cases hrefused
  · cases h

end ByteSink

/-! ### Buffers -/

namespace BufferedSink

variable {b after : BufferedSink}

/-- After a buffer has been emptied, the sink has received all that it held. -/
theorem drain_ok (h : b.drain = (.ok (), after)) :
    after.pending = "" ∧ after.sink.text = b.sink.text ++ b.pending := by
  unfold drain at h
  split at h
  -- an empty buffer hands nothing over
  · rename_i hempty
    cases h
    exact ⟨hempty, by rw [hempty, String.append_empty]⟩
  -- what it holds is handed over at once
  · split at h
    · rename_i sink hwrite
      cases h
      exact ⟨rfl, ByteSink.write_ok hwrite⟩
    · cases h

/-- If a buffer cannot be drained, its sink is not steady, and has received nothing. -/
theorem drain_error {fault : IoFault} (h : b.drain = (.error fault, after)) :
    ¬ b.sink.Steady ∧ after.sink.text = b.sink.text := by
  unfold drain at h
  split at h
  · cases h
  · split at h
    · cases h
    · rename_i sink hwrite
      cases h
      exact ByteSink.write_error hwrite

/-- To drain a buffer does not change whether its sink is steady. -/
theorem steady_drain (b : BufferedSink) : b.drain.2.sink.Steady ↔ b.sink.Steady := by
  have hwrite : (b.sink.write b.pending).2.Steady ↔ b.sink.Steady := b.sink.steady_write b.pending
  unfold drain
  split
  · exact Iff.rfl
  · generalize b.sink.write b.pending = offered at hwrite ⊢
    obtain ⟨_ | _, sink⟩ := offered <;> exact hwrite

/-- Nor does a write. -/
theorem steady_write (b : BufferedSink) (piece : String) :
    (b.write piece).2.sink.Steady ↔ b.sink.Steady := by
  have hdrain := b.steady_drain
  unfold write
  split
  -- with room in the buffer, the sink is left alone
  · exact Iff.rfl
  · generalize b.drain = drained at hdrain ⊢
    obtain ⟨_ | _, after⟩ := drained
    · exact hdrain
    · dsimp only
      split
      · exact (after.sink.steady_write piece).trans hdrain
      · exact hdrain

/-- Nor does a flush. -/
theorem steady_flush (b : BufferedSink) : b.flush.2.sink.Steady ↔ b.sink.Steady := by
  have hdrain := b.steady_drain
  unfold flush
  generalize b.drain = drained at hdrain ⊢
  obtain ⟨_ | _, after⟩ := drained
  · exact hdrain
  · exact after.sink.steady_flush.trans hdrain

/-- A piece is held back, or it follows what was held back. -/
theorem write_delivery (b : BufferedSink) (piece : String) :
    Delivery b.sink.text (b.pending ++ piece) b.sink.Steady (b.write piece).1
      (b.write piece).2.sink.text (b.write piece).2.pending := by
  unfold write
  split
  · -- There is room in the buffer.
    exact .taken "" (String.append_empty).symm (String.empty_append).symm
  · -- The buffer makes room, and what it held is the first to be refused.
    rcases hdrain : b.drain with ⟨fault | _, after⟩
    · obtain ⟨hsteady, htext⟩ := drain_error hdrain
      exact .refused "" _ hsteady (htext.trans (String.append_empty).symm)
        (String.empty_append).symm
    · obtain ⟨hpending, htext⟩ := drain_ok hdrain
      dsimp only
      split
      · -- A piece as long as the whole buffer goes past it.
        rcases hwrite : after.sink.write piece with ⟨fault | _, sink⟩
        · obtain ⟨hsteady, hsame⟩ := ByteSink.write_error hwrite
          refine .refused b.pending piece (fun h => hsteady ?_) (hsame.trans htext) rfl
          have hafter := b.steady_drain.mpr h
          rwa [hdrain] at hafter
        · refine .taken (b.pending ++ piece) ?_ ?_
          · rw [ByteSink.write_ok hwrite, htext, String.append_assoc]
          · dsimp only
            rw [hpending, String.append_empty]
      · refine .taken b.pending htext ?_
        dsimp only
        rw [hpending, String.empty_append]

/-- A flush hands on what was held back. -/
theorem flush_delivery (b : BufferedSink) :
    Delivery b.sink.text b.pending b.sink.Steady b.flush.1 b.flush.2.sink.text
      b.flush.2.pending := by
  unfold flush
  rcases hdrain : b.drain with ⟨fault | _, after⟩
  · obtain ⟨hsteady, htext⟩ := drain_error hdrain
    exact .refused "" _ hsteady (htext.trans (String.append_empty).symm) (String.empty_append).symm
  · obtain ⟨hpending, htext⟩ := drain_ok hdrain
    have hreceived : after.sink.flush.2.text = b.sink.text ++ b.pending :=
      after.sink.text_flush.trans htext
    dsimp only
    -- the buffer is empty, so only the sink itself can still fail
    rcases hflush : after.sink.flush with ⟨fault | _, sink⟩
    · -- The sink has received all of it, and then fails to hand it on.
      rw [hflush] at hreceived
      refine .refused b.pending "" (fun h => ByteSink.flush_error hflush ?_) hreceived
        (String.append_empty).symm
      have hafter := b.steady_drain.mpr h
      rwa [hdrain] at hafter
    · rw [hflush] at hreceived
      refine .taken b.pending hreceived ?_
      rw [hpending, String.append_empty]

/-- After a flush that went well, a buffer holds nothing. -/
theorem flush_pending (h : b.flush.1 = .ok ()) : b.flush.2.pending = "" := by
  unfold flush at h ⊢
  rcases hdrain : b.drain with ⟨fault | _, after⟩
  · rw [hdrain] at h
    cases h
  · exact (drain_ok hdrain).1

end BufferedSink

/-! ### Outputs -/

namespace Output

/-- What becomes of a piece. -/
theorem write_delivery (o : Output) (piece : String) :
    Delivery o.received (o.held ++ piece) o.Steady (o.write piece).1 (o.write piece).2.received
      (o.write piece).2.held := by
  cases o with
  | text sink =>
    have hsink := sink.write_delivery piece
    change Delivery sink.text ("" ++ piece) sink.Steady (sink.write piece).1
      (sink.write piece).2.text ""
    rwa [String.empty_append]
  | bytes b => exact b.write_delivery piece
  | file path b => exact b.write_delivery piece

/-- What becomes of the text that is held back when an output is flushed. -/
theorem flush_delivery (o : Output) :
    Delivery o.received o.held o.Steady o.flush.1 o.flush.2.received o.flush.2.held := by
  cases o with
  | text sink => exact .taken "" (String.append_empty).symm (String.append_empty).symm
  | bytes b => exact b.flush_delivery
  | file path b => exact b.flush_delivery

/-- A write does not change whether an output is steady. -/
theorem steady_write (o : Output) (piece : String) : (o.write piece).2.Steady ↔ o.Steady := by
  cases o with
  | text sink => exact sink.steady_write piece
  | bytes b => exact b.steady_write piece
  | file path b => exact b.steady_write piece

/-- Nor does a flush. -/
theorem steady_flush (o : Output) : o.flush.2.Steady ↔ o.Steady := by
  cases o with
  | text sink => exact Iff.rfl
  | bytes b => exact b.steady_flush
  | file path b => exact b.steady_flush

/-- A write does not move an output to the disk or away from it. -/
theorem onDisk_write (o : Output) (piece : String) : (o.write piece).2.OnDisk ↔ o.OnDisk := by
  cases o <;> exact Iff.rfl

theorem onDisk_flush (o : Output) : o.flush.2.OnDisk ↔ o.OnDisk := by
  cases o <;> exact Iff.rfl

/-- After a flush that went well, nothing is held back. -/
theorem flush_held {o : Output} (h : o.flush.1 = .ok ()) : o.flush.2.held = "" := by
  cases o with
  | text sink => rfl
  | bytes b => exact BufferedSink.flush_pending h
  | file path b => exact BufferedSink.flush_pending h

end Output

/-- A render that ends well holds nothing back. -/
theorem Compiled.render_held {config : Config} {fuel : Nat} {unit : Compiled}
    {st after : RenderState} (h : (unit.render config fuel).runOn st = (.ok (), after)) :
    after.output.held = "" := by
  unfold Compiled.render at h
  rw [runOn_bind] at h
  split at h
  -- a render that ends well has flushed its output, and what is flushed holds nothing
  · rename_i u mid _
    have hflush : (mid.output.flush.1.mapError fun fault => Stop.error (.io fault)) = .ok () ∧
        mid.output.flush.2 = after.output :=
      ⟨congrArg Prod.fst h, congrArg (·.2.output) h⟩
    rw [← hflush.2]
    refine Output.flush_held ?_
    cases hresult : mid.output.flush.1 with
    | ok u => rfl
    | error fault =>
      rw [hresult] at hflush
      cases hflush.1
  · cases h

/-! ### An output beside one that takes any text -/

/-- A text that a steady text sink holds. -/
def Output.Gathers (o : Output) (text : String) : Prop :=
  ∃ sink : TextSink, o = .text sink ∧ sink.Steady ∧ sink.text = text

/-- What gathers a text gathers it with the next piece. -/
theorem Output.Gathers.write {o : Output} {text : String} (h : o.Gathers text) (piece : String) :
    (o.write piece).1 = .ok () ∧ (o.write piece).2.Gathers (text ++ piece) := by
  obtain ⟨sink, rfl, hsteady, rfl⟩ := h
  have hdelivery := sink.write_delivery piece
  have hafter := (sink.steady_write piece).mpr hsteady
  change (sink.write piece).1 = _ ∧ Output.Gathers (.text (sink.write piece).2) _
  generalize sink.write piece = next at hdelivery hafter ⊢
  obtain ⟨result, after⟩ := next
  cases hdelivery with
  | taken delivered hreceived htext =>
    rw [String.append_empty] at htext
    exact ⟨rfl, after, rfl, hafter, hreceived.trans (congrArg _ htext.symm)⟩
  | refused _ _ hnot => exact absurd hsteady hnot

/-- There is nothing to flush. -/
theorem Output.Gathers.flush {o : Output} {text : String} (h : o.Gathers text) :
    o.flush = (.ok (), o) := by
  obtain ⟨sink, rfl, _⟩ := h
  rfl

/-- The first output is that of a render that started from `start`, and the second one has gathered
all that this render has written. -/
structure Delivers (start o₁ o₂ : Output) : Prop where
  offDisk : ¬ o₁.OnDisk
  steady : o₁.Steady ↔ start.Steady
  text : ∃ delivered, o₁.received = start.received ++ delivered ∧
    o₂.Gathers (delivered ++ o₁.held)

/-- The first output has been refused something. What it has received is a beginning of what the
second one gathers. -/
structure FallsBehind (start o₁ o₂ : Output) : Prop where
  unsteady : ¬ start.Steady
  text : ∃ delivered rest, o₁.received = start.received ++ delivered ∧
    o₂.Gathers (delivered ++ rest)

namespace Delivers

variable {start o₁ o₂ : Output}

/-- An operation of the first output on what it holds back and a text, while the second one gathers
the text, keeps two outputs together or makes the first one fall behind. -/
theorem together {x y : Except IoFault Unit × Output} {added : String} (h : Delivers start o₁ o₂)
    (hdelivery : Delivery o₁.received (o₁.held ++ added) o₁.Steady x.1 x.2.received x.2.held)
    (hdisk : x.2.OnDisk ↔ o₁.OnDisk) (hsteady : x.2.Steady ↔ o₁.Steady) (hy : y.1 = .ok ())
    (hgathers : ∀ text, o₂.Gathers text → y.2.Gathers (text ++ added)) :
    Together (Delivers start) (FallsBehind start) x y := by
  obtain ⟨result, after₁⟩ := x
  obtain ⟨result₂, after₂⟩ := y
  obtain rfl : result₂ = .ok () := hy
  obtain ⟨before, hbefore, htext⟩ := h.text
  have hnow := hgathers _ htext
  dsimp only at hdelivery hnow hdisk hsteady
  rw [String.append_assoc] at hnow
  -- what is taken is behind what has been received, and a refusal leaves a beginning of the text
  cases hdelivery with
  | taken delivered hreceived hall =>
    refine .joined _ ⟨fun hfile => h.offDisk (hdisk.mp hfile), hsteady.trans h.steady,
      before ++ delivered, ?_, ?_⟩
    · rw [hreceived, hbefore, String.append_assoc]
    · rwa [String.append_assoc, ← hall]
  | refused delivered rest hnot hreceived hall =>
    refine .lost _ _ ⟨fun hstart => hnot (h.steady.mpr hstart), before ++ delivered, rest, ?_, ?_⟩
    · rw [hreceived, hbefore, String.append_assoc]
    · rwa [String.append_assoc, ← hall]

/-- A write keeps two outputs together or makes the first one fall behind. -/
theorem write (h : Delivers start o₁ o₂) (piece : String) :
    Together (Delivers start) (FallsBehind start) (o₁.write piece) (o₂.write piece) := by
  obtain ⟨_, _, hgathers⟩ := h.text
  exact h.together (o₁.write_delivery piece) (o₁.onDisk_write piece) (o₁.steady_write piece)
    (hgathers.write piece).1 fun _ htext => (htext.write piece).2

/-- So does a flush. -/
theorem flush (h : Delivers start o₁ o₂) :
    Together (Delivers start) (FallsBehind start) o₁.flush o₂.flush := by
  obtain ⟨_, _, hgathers⟩ := h.text
  have hdelivery := o₁.flush_delivery
  rw [← String.append_empty (s := o₁.held)] at hdelivery
  refine h.together hdelivery o₁.onDisk_flush o₁.steady_flush ?_ fun text htext => ?_
  · rw [hgathers.flush]
  · rw [htext.flush, String.append_empty]
    exact htext

end Delivers

/-- **What reaches a sink**, beside what an output that takes any text gets. -/
def deliveryPair (files : Files → Prop) (start : Output) : OutputPair files where
  joined := Delivers start
  lost := FallsBehind start
  write piece h := h.write piece
  flush h := h.flush
  lostWrite := by
    rintro _ _ piece ⟨hstart, delivered, rest, hreceived, hgathers⟩
    refine ⟨hstart, delivered, rest ++ piece, hreceived, ?_⟩
    rw [← String.append_assoc]
    exact (hgathers.write piece).2
  lostFlush := by
    rintro _ o₂ ⟨hstart, delivered, rest, hreceived, hgathers⟩
    refine ⟨hstart, delivered, rest, hreceived, ?_⟩
    rwa [hgathers.flush]
  saved := by
    intro o₁ o₂ o₁' o₂' f _ h' hf
    obtain ⟨_, _, sink, rfl, _⟩ := h'.text
    rw [saved_of_not_onDisk h'.offDisk]
    exact ⟨rfl, hf⟩

/-- How a render to a sink ends beside one to an output that takes any text: with the same result,
heap and text, or refused something and behind. -/
theorem Outcome.delivers {config : Config} {P : LibraryPair config} {start : Output}
    {run₁ run₂ : Except Stop Unit × RenderState}
    (h : Outcome P (deliveryPair P.files start) Eq run₁ run₂) :
    (run₁.1 = run₂.1 ∧ run₁.2.memory.heap = run₂.2.memory.heap ∧
        Delivers start run₁.2.output run₂.2.output) ∨
      ((∃ fault, run₁.1 = .error (.error (.io fault))) ∧
        FallsBehind start run₁.2.output run₂.2.output) := by
  cases h with
  | inStep hresult hafter =>
    refine .inl ⟨?_, congrArg Memory.heap hafter.memory, hafter.output⟩
    cases hresult with
    | ok h => exact congrArg Except.ok h
    | error stop => rfl
  | lost fault _ hlost => exact .inr ⟨⟨fault, rfl⟩, hlost⟩

/-- What a sink has received is a beginning of what the other output has. -/
theorem delivered_prefix {start o₁ o₂ : Output}
    (h : Delivers start o₁ o₂ ∨ FallsBehind start o₁ o₂) :
    ∃ delivered rest, o₁.received = start.received ++ delivered ∧
      o₂.received = delivered ++ rest := by
  have hreceived : ∀ {text}, o₂.Gathers text → o₂.received = text := by
    rintro _ ⟨sink, rfl, _, rfl⟩
    rfl
  rcases h with h | h
  · obtain ⟨delivered, hpart, hwhole⟩ := h.text
    exact ⟨delivered, o₁.held, hpart, hreceived hwhole⟩
  · obtain ⟨delivered, rest, hpart, hwhole⟩ := h.text
    exact ⟨delivered, rest, hpart, hreceived hwhole⟩

/-- If nothing is held back, the sink has received all that the other output has. -/
theorem Delivers.complete {start o₁ o₂ : Output} (h : Delivers start o₁ o₂)
    (hheld : o₁.held = "") : o₁.received = start.received ++ o₂.received := by
  obtain ⟨delivered, hpart, sink, rfl, _, htext⟩ := h.text
  rw [hheld, String.append_empty] at htext
  change o₁.received = start.received ++ sink.text
  rw [hpart, htext]

/-- An output that holds nothing back belongs together with an empty one. -/
theorem Delivers.start {start : Output} (hdisk : ¬ start.OnDisk) (hheld : start.held = "") :
    Delivers start start .unlimited where
  offDisk := hdisk
  steady := Iff.rfl
  text := by
    refine ⟨"", (String.append_empty).symm, {}, rfl, ⟨rfl, fun _ => rfl⟩, ?_⟩
    rw [hheld]
    rfl

end Stencil
