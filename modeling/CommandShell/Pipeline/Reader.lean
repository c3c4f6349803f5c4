import CommandShell.Kernel
import CommandShell.Text.Utf8

/-!
# Readers

A reader waits for what comes out of a stream. When something comes it needs a moment to wake up,
and then finds all that has come in the meantime, as one chunk. `κ` names the sinks that streams are
for.
-/

namespace CommandShell.Pipeline.Reader

variable {κ : Type}

/-- How long a reader takes to wake up, in microseconds. -/
def wakeTime : Nat := 100

/-- A reader that is about to read. -/
structure Waking (κ : Type) where
  tap : Tap
  sink : κ
  /-- When it reads. -/
  time : Nat
  /-- What there is to read, newest first. -/
  pieces : List ByteArray

/-- The chunk that a reader reads. -/
def Waking.chunk (w : Waking κ) : κ × Bytes := (w.sink, w.pieces.reverse.flatMap unpack)

/-- The readers after something has come out of a stream. -/
def receive (sink : κ) (spill : Spill) : List (Waking κ) → List (Waking κ)
  | [] => [{ tap := spill.tap, sink, time := spill.time + wakeTime, pieces := [spill.bytes] }]
  | w :: rest =>
    if w.tap = spill.tap then { w with pieces := spill.bytes :: w.pieces } :: rest
    else w :: receive sink spill rest

/-- The chunks that are read while things come out of streams. -/
def chunksFrom (waking : List (Waking κ)) : List (κ × Spill) → List (κ × Bytes)
  | [] => waking.map Waking.chunk
  | (sink, spill) :: rest =>
    let (ready, waking) := waking.span fun w => w.time < spill.time
    ready.map Waking.chunk ++ chunksFrom (receive sink spill waking) rest

/-- The chunks that are read of what comes out of streams. -/
def chunks (spills : List (κ × Spill)) : List (κ × Bytes) := chunksFrom [] spills

end CommandShell.Pipeline.Reader
