import CommandShell.Channel
import CommandShell.Sink

/-!
# The screen

What a session has shown on its terminal, in order: texts, bytes that programs wrote to a real
terminal by themselves, and the records that the log echoes. `Console` is the stream that writes to
one channel of the screen.
-/

namespace CommandShell

inductive Chunk where
  | text (s : String)
  | raw (bytes : Bytes)
  deriving DecidableEq, Repr

/-- The text of a chunk; a terminal in memory is never sent raw bytes. -/
def Chunk.toText : Chunk → String
  | .text s => s
  | .raw bytes => Utf8.decode bytes

def Chunk.toBytes : Chunk → Bytes
  | .text s => Utf8.encode s
  | .raw bytes => bytes

/-- One thing shown. -/
structure Shown where
  channel : Channel
  chunk : Chunk
  /-- The log echoed it. -/
  echo : Bool := false
  deriving DecidableEq, Repr

abbrev Screen := List Shown

namespace Screen

def showText (screen : Screen) (channel : Channel) (text : String) : Screen :=
  screen ++ [{ channel, chunk := .text text }]

/-- What was shown on a channel. -/
def on (screen : Screen) (channel : Channel) : Screen :=
  screen.filter fun s => s.channel = channel

/-- The text of everything shown. -/
def text (screen : Screen) : String :=
  String.join (screen.map fun s => s.chunk.toText)

/-- The bytes of everything shown. -/
def bytes (screen : Screen) : Bytes :=
  screen.flatMap fun s => s.chunk.toBytes

/-- What the log echoed. -/
def echoes (screen : Screen) : Screen := screen.filter fun s => s.echo

/-- What commands wrote. -/
def written (screen : Screen) : Screen := screen.filter fun s => !s.echo

end Screen

/-- A channel of the screen as a stream. A direct one is a real terminal that programs can write to
by themselves. -/
structure Console where
  channel : Channel
  direct : Bool
  deriving DecidableEq, Repr

instance : TextStream Console Screen where
  write s c screen := ⟨c, screen.showText c.channel s, false⟩
  flush c screen := ⟨c, screen, false⟩
  close c screen := ⟨c, screen, false⟩
  hasDescriptor c := c.direct

end CommandShell
