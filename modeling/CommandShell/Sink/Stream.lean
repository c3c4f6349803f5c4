import CommandShell.Text.Utf8

/-!
# Streams

A stream takes text. What a stream writes to lies in a world outside of it, such as a file or a
pipe, so every operation takes that world and gives it back; it also says whether the reader at the
other end has gone. `Buffered` is the stream in front of a device that takes bytes: text is gathered
before it is handed to a buffer, and the buffer before it is handed to the device.
-/

namespace CommandShell

/-- How an operation on a stream ended. -/
structure Stream.Reply (σ W : Type) where
  stream : σ
  world : W
  /-- The reader at the other end has gone. -/
  broken : Bool := false

/-- Streams of text over a world. -/
class TextStream (σ : Type) (W : outParam Type) where
  write : String → σ → W → Stream.Reply σ W
  flush : σ → W → Stream.Reply σ W
  close : σ → W → Stream.Reply σ W
  /-- Whether there is an open descriptor that a program could write to. -/
  hasDescriptor : σ → Bool

/-- Devices that take bytes. -/
class Device (δ : Type) (W : outParam Type) where
  put : Bytes → δ → W → Stream.Reply δ W
  /-- Give the device up. -/
  drop : δ → W → W

/-- Text in memory. -/
structure Memory where
  text : String := ""
  deriving DecidableEq, Repr

instance : TextStream Memory Unit where
  write s m w := ⟨⟨m.text ++ s⟩, w, false⟩
  flush m w := ⟨m, w, false⟩
  close m w := ⟨m, w, false⟩
  hasDescriptor _ := false

/-- A device with the text and the bytes that wait for it. -/
structure Buffered (δ : Type) where
  device : δ
  isOpen : Bool := true
  /-- Text that has not been handed to the buffer, encoded. -/
  gathered : Bytes := []
  /-- Bytes that have not been handed to the device. -/
  buffer : Bytes := []

namespace Buffered

variable {δ W : Type} [Device δ W]

/-- How much text is gathered. -/
def gatherSize : Nat := 8192

/-- How many bytes the buffer holds. -/
def bufferSize : Nat := 4096

/-- Empty the buffer; if the reader has gone, its bytes stay. -/
def flushBuffer (s : Buffered δ) (w : W) : Stream.Reply (Buffered δ) W :=
  if s.buffer.isEmpty then ⟨s, w, false⟩
  else
    let r := Device.put s.buffer s.device w
    ⟨{ s with device := r.stream, buffer := if r.broken then s.buffer else [] }, r.world, r.broken⟩

/-- Hand bytes to the buffer. Those that do not fit go to the device, after the bytes that were
there before. -/
def push (bytes : Bytes) (s : Buffered δ) (w : W) : Stream.Reply (Buffered δ) W :=
  let free := bufferSize - s.buffer.length
  if bytes.length ≤ free && bytes.length < bufferSize then
    ⟨{ s with buffer := s.buffer ++ bytes }, w, false⟩
  else
    let r := s.flushBuffer w
    if r.broken then r
    else if bufferSize < bytes.length then
      let r' := Device.put bytes r.stream.device r.world
      ⟨{ r.stream with device := r'.stream }, r'.world, r'.broken⟩
    else ⟨{ r.stream with buffer := bytes }, r.world, false⟩

/-- Hand the gathered text to the buffer. -/
def pushGathered (s : Buffered δ) (w : W) : Stream.Reply (Buffered δ) W :=
  if s.gathered.isEmpty then ⟨s, w, false⟩
  else push s.gathered { s with gathered := [] } w

/-- Gather more text. A text that would make too much of what has been gathered before is not added
to it: what was gathered goes to the buffer first. -/
def write (text : String) (s : Buffered δ) (w : W) : Stream.Reply (Buffered δ) W :=
  let bytes := Utf8.encode text
  let r : Stream.Reply (Buffered δ) W :=
    if gatherSize < s.gathered.length + bytes.length then s.pushGathered w else ⟨s, w, false⟩
  if r.broken then r
  else
    let s := { r.stream with gathered := r.stream.gathered ++ bytes }
    if gatherSize ≤ s.gathered.length then s.pushGathered r.world else ⟨s, r.world, false⟩

/-- Hand everything to the device. -/
def flush (s : Buffered δ) (w : W) : Stream.Reply (Buffered δ) W :=
  let r := s.pushGathered w
  if r.broken then r else r.stream.flushBuffer r.world

/-- Flush and give the device up; what the reader did not take is tried once more and dropped. -/
def close (s : Buffered δ) (w : W) : Stream.Reply (Buffered δ) W :=
  let r := s.flush w
  let r' := r.stream.flushBuffer r.world
  ⟨{ r'.stream with isOpen := false, gathered := [], buffer := [] },
   Device.drop r'.stream.device r'.world, r.broken || r'.broken⟩

end Buffered

instance {δ W : Type} [Device δ W] : TextStream (Buffered δ) W where
  write := Buffered.write
  flush := Buffered.flush
  close := Buffered.close
  hasDescriptor s := s.isOpen

end CommandShell
