import CommandShell.Sink.Stream

/-!
# Sinks

A sink is the place that a command writes to. It wraps a stream: one that it owns is closed with it,
one that it borrows is only flushed. When the reader at the other end has gone the sink is broken,
and it drops everything from then on. Bytes of a program are decoded on the way, across the chunks
in which they arrive.
-/

namespace CommandShell

structure Sink (σ : Type) where
  stream : σ
  owned : Bool := false
  closed : Bool := false
  broken : Bool := false
  pending : Utf8.Pending := .none

namespace Sink

variable {σ W : Type} [TextStream σ W]

/-- Whether the sink drops what it is given. -/
def isDead (s : Sink σ) : Bool := s.broken || s.closed

/-- The sink after an operation on its stream. -/
def settle (s : Sink σ) (r : Stream.Reply σ W) : Sink σ × W :=
  ({ s with stream := r.stream, broken := s.broken || r.broken }, r.world)

def write (text : String) (s : Sink σ) (w : W) : Sink σ × W :=
  if s.isDead then (s, w) else s.settle (TextStream.write text s.stream w)

/-- Decode bytes and write the text that they complete. -/
def writeBytes (bytes : Bytes) (s : Sink σ) (w : W) : Sink σ × W :=
  let (text, pending) := Utf8.feed s.pending bytes
  let s := { s with pending }
  if text.isEmpty then (s, w) else s.write text w

def flush (s : Sink σ) (w : W) : Sink σ × W :=
  if s.isDead then (s, w) else s.settle (TextStream.flush s.stream w)

/-- Write what is left of a character, flush, and close the stream if the sink owns it. -/
def close (s : Sink σ) (w : W) : Sink σ × W :=
  if s.closed then (s, w)
  else
    let tail := String.ofList (Utf8.finish s.pending)
    let s := { s with pending := .none }
    let (s, w) := if tail.isEmpty then (s, w) else s.write tail w
    let (s, w) := s.flush w
    let (s, w) := if s.owned then s.settle (TextStream.close s.stream w) else (s, w)
    ({ s with closed := true }, w)

/-- Whether a program could write to the sink's own descriptor. -/
def hasDescriptor (s : Sink σ) : Bool := TextStream.hasDescriptor s.stream

/-- A sink that keeps what it is given in memory. -/
def buffer : Sink Memory := { stream := {} }

end Sink

end CommandShell
