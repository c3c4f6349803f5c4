import CommandShell.Pipeline.Run

/-!
# Running a pipeline

All programs are started first, from left to right; then the builtins run, in order; then the shell
waits for the programs. An interrupt of a builtin marks the builtins that have not run as
interrupted and is passed on once every program has ended. Only the last stage is redirected.
-/

namespace CommandShell

namespace Pipeline

/-- What came of running a pipeline. -/
structure Outcome where
  session : Session
  results : List (Option StageResult)
  remaining : Nat
  /-- What happened, as far as stages were run. -/
  history : List Event := []
  /-- The status of the last stage, unless the pipeline halted. -/
  ending : Except Halt Int

def Run.outcome (r : Run) (ending : Except Halt Int) : Outcome :=
  { session := r.session, results := r.results, remaining := r.remaining,
    history := r.history, ending }

/-- A pipeline of which no stage was run. -/
def unrun (s : Session) (stages : List Stage) (ending : Except Halt Int) : Outcome :=
  { session := s, results := stages.map fun _ => none, remaining := stages.length, ending }

/-- Run the stages, once the files of the last one are open. -/
def runWired (capture : Builtin.Capture) (s : Session) (stages : List Stage) (wiring : Wiring)
    (stops : Nat → Option Nat := fun _ => none) : Outcome :=
  let indexed := stages.zipIdx
  match Run.spawnAll indexed (Run.init s stages wiring) with
  | (some h, r) => r.tidy.abandon.outcome (.error h)
  | (none, r) =>
    match Run.runBuiltins capture indexed r stops with
    | (none, r) =>
      let r := r.join.tidy
      r.outcome (.ok r.lastStatus)
    | (some .interrupt, r) =>
      let r := (r.interruptBuiltins indexed).closeAll
      r.interruptPrograms.join.tidy.outcome (.error .interrupt)
    | (some h, r) => r.tidy.abandon.outcome (.error h)

/-- Run the stages of a pipeline. Interrupts may stop its builtins: `stops` gives for the position
of a stage after how many steps its builtin is stopped, if it is. -/
def run (capture : Builtin.Capture) (s : Session) (stages : List Stage)
    (stops : Nat → Option Nat := fun _ => none) : Outcome :=
  match stages.getLast? with
  | none => unrun s [] (.error (.fault .noStages))
  | some last =>
    match openRedirections s last.redirections with
    | (.ok wiring, s) => runWired capture s stages wiring stops
    | (.error (.system e p), s) =>
      unrun (s.display .err (p.text ++ ": " ++ e.text ++ "\n")) stages (.ok 1)
    | (.error f, s) => unrun s stages (.error (.fault f))

end Pipeline

end CommandShell
