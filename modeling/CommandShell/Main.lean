import CommandShell.FileSystem.Standard
import CommandShell.Machine.Standard
import CommandShell.Repl

/-!
# The command line

A session on the standard machine. The lines come from the standard input, and what the session
shows goes to the two standard channels.
-/

namespace CommandShell

/-- The variables of a session on the standard machine. -/
def Environment.standard : Environment := ⟨[("HOME", "/root"), ("PATH", "/bin:/usr/bin")]⟩

/-- The world of a session on the standard machine. -/
def World.standard : World := { files := .standard, directory := ["root"], home := "/root" }

/-- Read a stream to its end. -/
partial def readAll (stream : IO.FS.Stream) (before : String) : IO String := do
  let line ← stream.getLine
  if line.isEmpty then return before else readAll stream (before ++ line)

/-- Put what a session has shown on the standard channels. -/
def printScreen (screen : Screen) : IO Unit := do
  let out ← IO.getStdout
  let err ← IO.getStderr
  for shown in screen do
    let bytes := ByteArray.mk shown.chunk.toBytes.toArray
    match shown.channel with
    | .out => out.write bytes
    | .err => err.write bytes
  out.flush
  err.flush

end CommandShell

open CommandShell

/-- Run a session on the standard machine. -/
def main : IO UInt32 := do
  let stdin ← IO.getStdin
  let interactive ← stdin.isTty
  let input ← readAll stdin ""
  let outcome := Repl.runProgram .standard .standard .standard interactive input
  printScreen outcome.screen
  match outcome.result with
  | .ok code => return (code % 256).toNat.toUInt32
  | .error fault =>
    IO.eprintln fault.message
    return 1
