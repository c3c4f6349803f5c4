import CommandShell.Machine
import CommandShell.Script.Exec

/-!
# The standard machine

The machine that runs scripts and the few tools that they rely on.
-/

namespace CommandShell.Machine

open Script

/-- How deep the work of a program may go. -/
def maxSteps : Nat := 1000000000

/-- The program that a file turns out to be. -/
def program (image : Image) : Program := fun launch =>
  let words :=
    { image with words := image.words.map octetsOf }.arguments (launch.arguments.map octetsOf)
  let environment := launch.environment.bindings.map fun v => (octetsOf v.1, octetsOf v.2)
  runImage maxSteps image words environment launch.directory

/-- The standard machine. -/
def standard : Machine where
  load files directory path := (Image.find files directory Image.maxDepth path).map program

end CommandShell.Machine
