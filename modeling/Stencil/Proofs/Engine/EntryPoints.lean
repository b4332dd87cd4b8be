import Mathlib
import Stencil.Proofs.Engine.Session
import Stencil.Proofs.Render.Delivery

/-!
# All ways to render deliver the same text

A template may be rendered to a string, to a text sink of the caller or to a byte sink behind a
buffer. Each of these renders may come first, and each of them leaves the engine warmer than it was.
Still, two renders of one template with equal data, among the same files, come to the same: what a
sink has received is a beginning of the text that a render to a string writes, and if the sink
refuses nothing, the results are equal and after a success it has received all of it.

The custom directives of the engine have to pass on what goes wrong with the output. One that does
not may go on writing after a piece was refused, so that the text of the sink has a gap.

Main definition: `Config.Relays`.
Main statements: `Session.WarmedUp.renders_inStep`, `Session.entry_points_deliver`.
-/

namespace Stencil

/-- The custom directives of a configuration pass on what goes wrong with the output. -/
def Config.Relays (config : Config) : Prop := ∀ directive, config.Knows directive → directive.Relays

/-- A configuration that only knows the directive that escapes its body passes errors on. -/
theorem Config.relays_default : ({} : Config).Relays := by
  intro directive hknows
  rw [Config.eq_escape_of_knows hknows]
  exact Directive.escape_relays

/-! ### Bytes -/

/-- The bytes that a byte sink has received. -/
def ByteSink.bytes (sink : ByteSink) : ByteArray :=
  sink.chunks.foldl (fun bytes chunk => bytes ++ chunk.toUTF8) .empty

/-- A byte sink has received the bytes of its text. -/
theorem ByteSink.bytes_eq (sink : ByteSink) : sink.bytes = sink.text.toUTF8 := by
  obtain ⟨⟨chunks⟩, _⟩ := sink
  unfold bytes text
  rw [List.foldl_toArray, List.foldl_toArray]
  -- chunk by chunk, from any text that has been received before
  have hfold : ∀ (start : String), chunks.foldl (fun bytes chunk => bytes ++ chunk.toUTF8)
      start.toUTF8 = (chunks.foldl (· ++ ·) start).toUTF8 := by
    induction chunks with
    | nil => exact fun _ => rfl
    | cons chunk rest ih =>
      intro start
      rw [List.foldl_cons, List.foldl_cons, ← ih (start ++ chunk)]
      rfl
  exact hfold ""

/-- The bytes that an output has received. -/
def Output.bytesReceived : Output → ByteArray
  | .text sink => sink.text.toUTF8
  | .bytes b | .file _ b => b.sink.bytes

/-- The bytes that an output has received are those of its text. -/
theorem Output.bytesReceived_eq (o : Output) : o.bytesReceived = o.received.toUTF8 := by
  cases o with
  | text sink => rfl
  | bytes b => exact b.sink.bytes_eq
  | file path b => exact b.sink.bytes_eq

/-! ### Two renders of one template -/

/-- A render that ends well holds nothing back. -/
theorem Engine.render_held {engine : Engine} {files : Files} {fuel : Nat} {t : Template}
    {data : Assoc Value} {heap : Heap} {output : Output}
    (h : (engine.render files fuel t data heap output).result = .ok ()) :
    (engine.render files fuel t data heap output).output.held = "" :=
  Compiled.render_held (Prod.ext h rfl)

namespace Session

variable {s s₁ s₂ : Session}

/-- A render of a template from one warm engine beside a render of the same template from another
one, each to an output of its own. -/
theorem WarmedUp.renders_inStep (hdraws : s.Draws s.engine.config)
    (hrelays : s.engine.config.Relays) (h₁ : s.WarmedUp s₁) (h₂ : s.WarmedUp s₂) {t : Template}
    (ht : t ∈ s.handed) (fuel : Nat) (data : Assoc Value) (heap : Heap) (start : Output)
    (hdisk : ¬ start.OnDisk) (hheld : start.held = "") :
    let part := s₁.engine.render s₁.files fuel t data heap start
    let whole := s₂.engine.render s₂.files fuel t data heap .unlimited
    (part.result = whole.result ∧ part.heap = whole.heap ∧
        Delivers start part.output whole.output) ∨
      ((∃ fault, part.result = .error (.error (.io fault))) ∧
        FallsBehind start part.output whole.output) := by
  have hlibrary : s.engine.library.Draws (s.engine.context s.files).config := hdraws.library
  -- Both engines are as warm as renders have made them, from the same state of the session.
  let P := Library.warmPair (s.engine.context s.files) s.engine.library hlibrary
  let O := deliveryPair P.files start
  have halike : Compiled.Alike P.likeness t.unit t.unit := hdraws.handed ht _ fun _ => .inl rfl
  have hcoupled := t.unit.render_coupled P fuel halike O (.inr hrelays)
  let before (lib : Library) (output : Output) : RenderState :=
    ⟨⟨heap, .ofData data, {}⟩, output, lib, s.files⟩
  have hbefore : InStep P O (before s₁.engine.library start)
      (before s₂.engine.library .unlimited) :=
    ⟨rfl, rfl, rfl, ⟨h₁.library, h₂.library⟩, .start hdisk hheld⟩
  unfold Engine.render
  rw [h₁.settings, h₂.settings, h₁.files, h₂.files]
  exact (hcoupled.outcome hbefore).delivers

/-- **All ways to render deliver the same text.** Take any template that was handed out in a
session, and two continuations of the session that do nothing but render to sinks. A render after
the first one to bytes or to a text sink is compared with a render of the same template, with equal
data, after the second one to a string.

* If the sink refuses nothing, the renders have the same result, and after a success the sink has
  received all that the other render has written, as bytes or as text.
* In any case, what the sink has received is a beginning of what the other render writes, even if
  the sink refuses something at any point, and even where the renders fail. -/
theorem entry_points_deliver {name : String} {config : Config} (hrelays : config.Relays)
    {files : Files} {events : List Event} {s : Session}
    (hs : s = (start name config files).run events) {t : Template} (ht : t ∈ s.handed)
    {renders renders' : List Event} (hrenders : ∀ e ∈ renders, e.RendersToSink)
    (hrenders' : ∀ e ∈ renders', e.RendersToSink) {s₁ s₂ : Session} (hs₁ : s₁ = s.run renders)
    (hs₂ : s₂ = s.run renders') (fuel : Nat) (data : Assoc Value) (heap : Heap) :
    let whole := s₂.engine.render s₂.files fuel t data heap .unlimited
    (∀ sink : ByteSink,
      let part := s₁.engine.renderToBytes s₁.files fuel t data heap sink
      (sink.Steady → part.result = whole.result ∧ (part.result = .ok () →
        part.output.bytesReceived = sink.bytes ++ whole.output.received.toUTF8)) ∧
      ∃ delivered rest, part.output.received = sink.text ++ delivered ∧
        whole.output.received = delivered ++ rest) ∧
    (∀ sink : TextSink,
      let part := s₁.engine.render s₁.files fuel t data heap (.text sink)
      (sink.Steady → part.result = whole.result ∧ (part.result = .ok () →
        part.output.received = sink.text ++ whole.output.received)) ∧
      ∃ delivered rest, part.output.received = sink.text ++ delivered ∧
        whole.output.received = delivered ++ rest) := by
  have hdraws : s.Draws config := hs ▸ draws_run name config files events
  have hsettled : s.engine.config = config := hdraws.settled
  rw [← hsettled] at hdraws hrelays
  subst hs₁ hs₂
  intro whole
  have hboth := (warm_run hrenders).renders_inStep hdraws hrelays (warm_run hrenders') ht fuel
    data heap
  refine ⟨fun sink => ?_, fun sink => ?_⟩
  · -- The sink is behind a buffer, whose size is that of the engine that renders.
    let start : Output := .bytes (.ofSink sink (s.run renders).engine.config.settings.bufferSize)
    have hstart := hboth start id rfl
    refine ⟨fun hsteady => ?_, delivered_prefix (hstart.imp (·.2.2) (·.2))⟩
    obtain ⟨hresult, _, hdelivers⟩ := hstart.resolve_right fun h => h.2.unsteady hsteady
    refine ⟨hresult, fun hok => ?_⟩
    rw [Output.bytesReceived_eq, sink.bytes_eq]
    change _ = (sink.text ++ whole.output.received).toUTF8
    exact congrArg String.toUTF8 (hdelivers.complete (Engine.render_held hok))
  -- a text sink has no buffer in front of it
  · have hstart := hboth (.text sink) id rfl
    refine ⟨fun hsteady => ?_, delivered_prefix (hstart.imp (·.2.2) (·.2))⟩
    obtain ⟨hresult, _, hdelivers⟩ := hstart.resolve_right fun h => h.2.unsteady hsteady
    exact ⟨hresult, fun hok => hdelivers.complete (Engine.render_held hok)⟩

/-- An escaped body, once rendered to a sink with room for four bytes behind a warm engine, once to
a sink that refuses nothing, and beside both to a string by an engine that has rendered nothing. -/
theorem entry_points_deliver_escaped :
    let s := (start "" {} {}).run [.getText "#escape()a<b#end" false]
    let s₁ := s.run [.render 0 9 .empty {} .unlimited]
    ∃ t, t ∈ s.handed ∧
      let whole := s.engine.render s.files 9 t .empty {} .unlimited
      let full := s₁.engine.renderToBytes s₁.files 9 t .empty {} {}
      let part := s₁.engine.renderToBytes s₁.files 9 t .empty {} { room := some 4 }
      full.result = whole.result ∧ ∃ delivered rest, part.output.received = "" ++ delivered ∧
        whole.output.received = delivered ++ rest := by
  intro s s₁
  have hhanded : ((start "" {} {}).run [.getText "#escape()a<b#end" false]).handed.length = 1 := by
    cbv
  obtain ⟨t, ht⟩ : ∃ t, t ∈ s.handed :=
    List.exists_mem_of_length_pos (Nat.lt_of_lt_of_eq Nat.one_pos hhanded.symm)
  have hrenders : ∀ e ∈ [Event.render 0 9 .empty {} .unlimited], e.RendersToSink := by
    intro e he
    rw [List.mem_singleton.mp he]
    exact id
  -- a steady sink gets all of it, and one with room for four characters a part
  obtain ⟨hbytes, _⟩ := entry_points_deliver Config.relays_default rfl ht hrenders
    (List.forall_mem_nil _) rfl rfl 9 .empty {}
  exact ⟨t, ht, ((hbytes {}).1 ⟨rfl, fun _ => rfl⟩).1, (hbytes { room := some 4 }).2⟩

end Session

end Stencil
