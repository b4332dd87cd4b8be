import Stencil.Error
import Stencil.Value.Text

/-!
# Where a render writes

A render writes pieces of text, one after the other, to an output. There are three kinds.

* A **text sink** takes every piece as it comes, or refuses it whole.
* A **byte sink** sits behind a buffer. A piece that does not fit into the buffer any more empties
  it first, and a piece as long as the whole buffer goes past it. The sink takes chunks, or refuses
  them whole; a chunk that it refuses stays in the buffer.
* A **file** is a byte sink behind a buffer whose chunks are on disk as soon as it has taken them.

A sink refuses what its room has no space for, and it may refuse any other offer as well: the
offers it gets are counted, and which of them it refuses belongs to the sink. Lengths are counted in
bytes of UTF-8.

Main definitions: `Output.write`, `Output.flush`, `Output.received`.
Main statement: `ByteSink.write_ok` (a successful write appends the chunk and nothing else).
-/

namespace Stencil

/-- Whether `used` bytes leave space for `more` of them. -/
def fits (room : Option Nat) (used more : Nat) : Bool :=
  match room with
  | some n => used + more ≤ n
  | none => true

/-! ### Text sinks -/

/-- A sink that takes text. -/
structure TextSink where
  /-- The text taken so far. -/
  text : String := ""
  /-- How many bytes the sink takes in all. -/
  room : Option Nat := none
  /-- How many pieces the sink has been offered. -/
  offers : Nat := 0
  /-- The offers that the sink refuses although there is room. -/
  refuses : Nat → Bool := fun _ => false
deriving Inhabited

/-- Gives a piece to a text sink. -/
def TextSink.write (sink : TextSink) (piece : String) : Except IoFault Unit × TextSink :=
  let offered := { sink with offers := sink.offers + 1 }
  if !sink.refuses sink.offers && fits sink.room sink.text.utf8ByteSize piece.utf8ByteSize then
    (.ok (), { offered with text := sink.text ++ piece })
  else (.error .formatter, offered)

/-! ### Byte sinks -/

/-- A sink that takes chunks of bytes. -/
structure ByteSink where
  /-- The chunks taken so far, oldest first. -/
  chunks : Array String := #[]
  /-- How often the sink has passed on what it has. -/
  flushes : Nat := 0
  /-- How many bytes the sink takes in all. -/
  room : Option Nat := none
  /-- How often the sink was offered a chunk or told to pass on what it has. -/
  offers : Nat := 0
  /-- The offers that the sink refuses although there is room. -/
  refuses : Nat → Bool := fun _ => false
deriving Inhabited

namespace ByteSink

/-- Everything that a sink has taken. -/
def text (sink : ByteSink) : String := sink.chunks.foldl (· ++ ·) ""

/-- Gives a chunk to a byte sink. -/
def write (sink : ByteSink) (chunk : String) : Except IoFault Unit × ByteSink :=
  let offered := { sink with offers := sink.offers + 1 }
  if !sink.refuses sink.offers && fits sink.room sink.text.utf8ByteSize chunk.utf8ByteSize then
    (.ok (), { offered with chunks := sink.chunks.push chunk })
  else (.error .sinkFull, offered)

/-- Tells a sink to pass on what it has. -/
def flush (sink : ByteSink) : Except IoFault Unit × ByteSink :=
  let offered := { sink with offers := sink.offers + 1 }
  if sink.refuses sink.offers then (.error .sinkFull, offered)
  else (.ok (), { offered with flushes := sink.flushes + 1 })

/-- A successful write appends the chunk. -/
theorem write_ok {sink after : ByteSink} {chunk : String}
    (h : sink.write chunk = (.ok (), after)) : after.text = sink.text ++ chunk := by
  unfold write at h
  split at h
  · simp only [Prod.mk.injEq, true_and] at h
    subst h
    simp [text]
  · simp at h

end ByteSink

/-! ### The buffer in front of a byte sink -/

/-- A byte sink with a buffer in front of it. -/
structure BufferedSink where
  sink : ByteSink
  /-- How many bytes the buffer holds. -/
  capacity : Nat
  /-- What the sink has yet to get. -/
  pending : String := ""
deriving Inhabited

namespace BufferedSink

/-- The least capacity of a buffer. -/
def minCapacity : Nat := 64

/-- A sink behind an empty buffer, which holds at least `minCapacity` bytes. -/
def ofSink (sink : ByteSink) (capacity : Nat) : BufferedSink :=
  { sink, capacity := max capacity minCapacity }

/-- Hands what is pending to the sink; a refused chunk stays. -/
def drain (b : BufferedSink) : Except IoFault Unit × BufferedSink :=
  if b.pending = "" then (.ok (), b)
  else
    match b.sink.write b.pending with
    | (.ok (), sink) => (.ok (), { b with sink, pending := "" })
    | (.error fault, sink) => (.error fault, { b with sink })

/-- Takes a piece. -/
def write (b : BufferedSink) (piece : String) : Except IoFault Unit × BufferedSink :=
  if b.pending.utf8ByteSize + piece.utf8ByteSize ≤ b.capacity then
    (.ok (), { b with pending := b.pending ++ piece })
  else
    match b.drain with
    | (.error fault, b) => (.error fault, b)
    | (.ok (), b) =>
      if b.capacity ≤ piece.utf8ByteSize then
        let (result, sink) := b.sink.write piece
        (result, { b with sink })
      else (.ok (), { b with pending := b.pending ++ piece })

/-- Gives up the sink, with everything handed to it. -/
def release (b : BufferedSink) : Except IoFault ByteSink :=
  match b.drain with
  | (.error fault, _) => .error fault
  | (.ok (), b) => .ok b.sink

/-- Hands everything to the sink and tells it to pass it on. -/
def flush (b : BufferedSink) : Except IoFault Unit × BufferedSink :=
  match b.drain with
  | (.error fault, b) => (.error fault, b)
  | (.ok (), b) =>
    let (result, sink) := b.sink.flush
    (result, { b with sink })

end BufferedSink

/-! ### Outputs -/

/-- What a render writes to. -/
inductive Output where
  | text (sink : TextSink)
  | bytes (sink : BufferedSink)
  | file (path : String) (sink : BufferedSink)
deriving Inhabited

namespace Output

/-- An output that takes any text. -/
def unlimited : Output := .text {}

/-- Writes a piece. -/
def write (piece : String) : Output → Except IoFault Unit × Output
  | .text sink =>
    let (result, sink) := sink.write piece
    (result, .text sink)
  | .bytes sink =>
    let (result, sink) := sink.write piece
    (result, .bytes sink)
  | .file path sink =>
    let (result, sink) := sink.write piece
    (result, .file path sink)

/-- Writes a value as output directives do: null writes no piece at all. -/
def writeValue (h : Heap) (v : Value) (out : Output) : Except IoFault Unit × Output :=
  if v.isNull then (.ok (), out) else out.write (h.text v)

/-- Passes on what a buffer holds. -/
def flush : Output → Except IoFault Unit × Output
  | .text sink => (.ok (), .text sink)
  | .bytes sink =>
    let (result, sink) := sink.flush
    (result, .bytes sink)
  | .file path sink =>
    let (result, sink) := sink.flush
    (result, .file path sink)

/-- The text that has reached the sink. -/
def received : Output → String
  | .text sink => sink.text
  | .bytes sink | .file _ sink => sink.sink.text

/-- How many chunks the sink has taken; a text sink takes none. -/
def chunkCount : Output → Nat
  | .text _ => 0
  | .bytes sink | .file _ sink => sink.sink.chunks.size

end Output

end Stencil
