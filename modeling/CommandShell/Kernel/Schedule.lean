import CommandShell.Kernel.Step

/-!
# Running processes

The tasks of a system run in turns, each until it has to wait or has run for a while. When all of
them wait, the time moves on to the moment at which the first one is to be woken. Everything that is
run for ever is given a number of rounds. The shell waits for the tasks, or writes to what they
read.
-/

namespace CommandShell.Kernel

/-- How many requests a task makes in one turn. -/
def turnSize : Nat := 1000

/-- A task runs; whether it has done anything comes with the system. -/
def runTask : Nat → Bool → Kernel → Task → Kernel × Bool
  | 0, moved, k, t => (k.putBack t, moved)
  | n + 1, moved, k, t =>
    match k.step t with
    | .goesOn k t => runTask n true { k with clock := k.clock + 1 } t
    | .waits k t => (k.putBack t, moved)
    | .ends k t e => (k.finish t e, true)

/-- The tasks of some numbers run, one after the other, unless there is a reason to stop. -/
def round (stop : Kernel → Bool) : List Nat → Bool → Kernel → Kernel × Bool
  | [], moved, k => (k, moved)
  | pid :: rest, moved, k =>
    if stop k then (k, true)
    else
      match k.take pid with
      | none => round stop rest moved k
      | some (t, k) =>
        let (k, m) := if t.stopped then (k.putBack t, false) else k.runTask turnSize false t
        round stop rest (moved || m) k

/-- The time at which the first task is to be woken. -/
def nextWake (k : Kernel) : Option Nat :=
  ((k.tasks.filter fun t => !t.stopped).filterMap Task.wakeAt).min?

/-- Run everything until there is a reason to stop, or nothing can happen any more. Time passes only
if `patient` says so. -/
def runUntil (stop : Kernel → Bool) (patient : Bool) : Nat → Kernel → Kernel
  | 0, k => k
  | fuel + 1, k =>
    if stop k then k
    else
      match k.round stop (k.tasks.map Task.pid) false with
      | (k, true) => runUntil stop patient fuel k
      | (k, false) =>
        match if patient then k.nextWake else none with
        | some w => runUntil stop patient fuel { k with clock := max k.clock w }
        | none => k

/-- How many rounds are run to find out what waits. -/
def settleRounds : Nat := 300

/-- Run everything up to the moment at which all tasks wait. -/
def settle (k : Kernel) : Kernel := k.runUntil (fun _ => false) false settleRounds

/-- Run everything until there is a reason to stop, as long as it takes. -/
def runPatiently (k : Kernel) (stop : Kernel → Bool) : Kernel := k.runUntil stop true k.patience

/-- Whether a task does not run any more. -/
def hasEnded (k : Kernel) (pid : Nat) : Bool := (k.exitOf pid).isSome || !k.hasTask pid

/-- End a task from outside. -/
def terminate (k : Kernel) (pid : Nat) : Kernel :=
  match k.take pid with
  | some (t, k) => k.finish t (.killed Signal.kill)
  | none => k

/-- Run everything until a task has ended; one that will not end is killed. -/
def await (k : Kernel) (pid : Nat) : Kernel :=
  let k := k.runPatiently fun k => k.hasEnded pid
  if k.hasEnded pid then k else k.terminate pid

/-- Whether a pipe can take bytes, or nobody will read them. -/
def isReady (k : Kernel) (pipe : Nat) : Bool :=
  (k.pipeContent pipe).size < pipeSize || !k.isHeld (.reader pipe)

/-- The shell writes to a pipe; while it is full, everything else runs. Whether the reader has gone
comes with the system. A pipe that nobody empties takes more than it holds. -/
def push (pipe : Nat) : Nat → ByteArray → Kernel → Kernel × Bool
  | 0, bytes, k => (k.setPipe pipe (k.pipeContent pipe ++ bytes), false)
  | n + 1, bytes, k =>
    let k := if k.isReady pipe then k else k.runPatiently fun k => k.isReady pipe
    if !k.isHeld (.reader pipe) then (k, true)
    else if !k.isReady pipe then (k.setPipe pipe (k.pipeContent pipe ++ bytes), false)
    else
      let content := k.pipeContent pipe
      let room := pipeSize - content.size
      let k := k.setPipe pipe (content ++ bytes.extract 0 room)
      if bytes.size ≤ room then (k, false) else push pipe n (bytes.extract room bytes.size) k

/-- The shell writes to something that it holds. Whether the reader has gone comes with the system.
A file that is open takes all that is written to it: the disk has room. -/
def put (k : Kernel) (h : Handle) (bytes : ByteArray) : Kernel × Bool :=
  match h with
  | .file n => (k.writeFile n bytes, false)
  | .writer n => if bytes.size = 0 then (k, false) else push n bytes.size bytes k
  | _ => (k, false)

end CommandShell.Kernel
