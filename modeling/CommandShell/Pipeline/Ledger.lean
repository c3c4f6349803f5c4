import CommandShell.Kernel
import CommandShell.Stage

/-!
# The ledger of a pipeline

What the shell writes down about a pipeline that it runs: how the stages ended, which coupler ends
it has not closed, which programs it has started, and the history of all this.
-/

namespace CommandShell.Pipeline

/-- The status of a command that was not found. -/
def statusNotFound : Int := 127

/-- The status of a program that could not be started. -/
def statusCannotRun : Int := 126

/-- The status of a command that was interrupted. -/
def statusInterrupted : Int := 130

/-- How a stage ended. -/
structure StageResult where
  command : String
  status : Int
  pid : Option Nat := none
  deriving DecidableEq, Repr

/-- An end of the coupler behind a stage. -/
inductive CouplerEnd where
  | read (coupler : Nat)
  | write (coupler : Nat)
  deriving DecidableEq, Repr

/-- What happens to the stages and the coupler ends of a pipeline. -/
inductive Event where
  | opened (e : CouplerEnd)
  /-- An end is handed to a stage that is to be started. -/
  | handed (e : CouplerEnd) (stage : Nat)
  /-- A sink takes an end over, and closes it later. -/
  | wrapped (e : CouplerEnd)
  | closed (e : CouplerEnd)
  /-- The command of a stage was not found. -/
  | missing (stage : Nat)
  /-- The program of a stage could not be started. -/
  | refused (stage : Nat)
  | started (stage pid : Nat)
  /-- The builtin of a stage is called. -/
  | called (stage : Nat)
  | returned (stage : Nat) (ending : Except Halt Int)
  /-- The shell starts to wait for programs; these are the handles that it holds. -/
  | waiting (held : List Handle)
  /-- The shell has waited for a program and knows how it ended. -/
  | awaited (stage pid : Nat) (exit : Option Exit)
  /-- The result of a stage is written down, with the number of stages that are left. -/
  | recorded (stage : Nat) (result : StageResult) (remaining : Nat)

/-- A program that has been started. -/
structure Job where
  index : Nat
  pid : Nat
  deriving DecidableEq, Repr

structure Ledger where
  stages : List Stage
  results : List (Option StageResult)
  remaining : Nat
  /-- The coupler ends that the shell has neither closed nor given to a sink. -/
  openEnds : List CouplerEnd := []
  jobs : List Job := []
  history : List Event := []

namespace Ledger

/-- The ends of so many couplers. -/
def couplerEnds (count : Nat) : List CouplerEnd :=
  (List.range count).flatMap fun i => [CouplerEnd.read i, .write i]

/-- The ledger of a pipeline at its start: no stage has a result, and both ends of the couplers
between the stages are open. -/
def ofStages (stages : List Stage) : Ledger :=
  let ends := couplerEnds (stages.length - 1)
  { stages
    results := stages.map fun _ => none
    remaining := stages.length
    openEnds := ends
    history := ends.map .opened }

def note (l : Ledger) (e : Event) : Ledger := { l with history := l.history ++ [e] }

/-- Whether an end is the shell's to close. -/
def isOpen (l : Ledger) (e : CouplerEnd) : Bool := l.openEnds.contains e

/-- An end is closed. -/
def close (l : Ledger) (e : CouplerEnd) : Ledger :=
  { l with openEnds := l.openEnds.filter (· ≠ e) }.note (.closed e)

/-- A sink takes an end over. -/
def wrap (l : Ledger) (e : CouplerEnd) : Ledger :=
  { l with openEnds := l.openEnds.filter (· ≠ e) }.note (.wrapped e)

/-- A program has been started for a stage. -/
def start (l : Ledger) (i pid : Nat) : Ledger :=
  let job : Job := { index := i, pid }
  { l with jobs := l.jobs ++ [job] }.note (.started i pid)

/-- Whether a stage has no result yet. -/
def isPending (l : Ledger) (i : Nat) : Bool := l.results[i]? = some none

/-- Write down how a stage ended. -/
def complete (l : Ledger) (i : Nat) (status : Int) (pid : Option Nat := none) : Ledger :=
  let result : StageResult := { command := (l.stages[i]?.map Stage.command).getD "", status, pid }
  let remaining := if l.isPending i then l.remaining - 1 else l.remaining
  { l with results := l.results.set i (some result), remaining }.note (.recorded i result remaining)

/-- Write down how a stage ended unless that is known. -/
def completePending (l : Ledger) (i : Nat) (status : Int) : Ledger :=
  if l.isPending i then l.complete i status else l

/-- The command of a stage was not found. -/
def miss (l : Ledger) (i : Nat) : Ledger := (l.note (.missing i)).complete i statusNotFound

/-- The program of a stage could not be started. -/
def refuse (l : Ledger) (i : Nat) : Ledger := (l.note (.refused i)).complete i statusCannotRun

/-- A program has been waited for. -/
def finish (l : Ledger) (job : Job) (exit : Option Exit) : Ledger :=
  let status : Nat := (exit.map Exit.status).getD 0
  (l.note (.awaited job.index job.pid exit)).complete job.index status (some job.pid)

end Ledger

end CommandShell.Pipeline
