import CommandShell.Shell

/-!
# The read-dispatch loop

Lines are read and executed until a line asks the shell to stop or the input ends. Every regular way
out saves the history. An interrupt while a line runs ends that line only.
-/

namespace CommandShell.Repl

/-- Where the loop is. -/
inductive Phase where
  | prompting
  | reading
  | dispatching
  | terminated
  deriving DecidableEq, Repr

/-- How the input ends. -/
inductive InputEnd where
  | endOfInput
  | interrupt
  deriving DecidableEq, Repr

/-- The exit code for an end of the input. -/
def InputEnd.code : InputEnd → Int
  | .endOfInput => 0
  | .interrupt => Pipeline.statusInterrupted

def defaultPrompt : String := "$ "

/-- The banner of an interactive session. -/
def banner : String :=
  let border := String.ofList (List.replicate 38 '=')
  "  " ++ border ++
    "\n            ai-shell v0.1.0\n  Type 'help' for commands, 'exit' to quit.\n  " ++
    border ++ "\n"

/-- What came of the loop. -/
structure Outcome where
  session : Session
  /-- The exit code. -/
  result : Except Fault Int
  phase : Phase
  unread : List String
  /-- How often the prompt was shown. -/
  prompts : Nat

/-- The outcome with one more prompt. -/
def Outcome.prompted (o : Outcome) : Outcome := { o with prompts := o.prompts + 1 }

/-- The end of the input: save the history and stop. -/
def terminate (ending : InputEnd) (s : Session) : Outcome :=
  match (s.display .out "\n").flushHistory with
  | (.ok (), session) =>
    { session, result := .ok ending.code, phase := .terminated, unread := [], prompts := 1 }
  | (.error f, session) =>
    { session, result := .error f, phase := .reading, unread := [], prompts := 1 }

/-- Read and execute lines. `showPrompt` puts the prompt on the screen where that is wanted. -/
def run (showPrompt : Session → Session) (ending : InputEnd) : List String → Session → Outcome
  | [], s => terminate ending (showPrompt s)
  | line :: rest, s =>
    match Shell.execute (showPrompt s) line with
    | (.ok _, s) => (run showPrompt ending rest s).prompted
    | (.error .interrupt, s) =>
      (run showPrompt ending rest
        { s.display .err "\n" with lastStatus := Pipeline.statusInterrupted }).prompted
    | (.error (.exit code), session) =>
      { session, result := .ok code, phase := .terminated, unread := rest, prompts := 1 }
    | (.error (.fault f), session) =>
      { session, result := .error f, phase := .dispatching, unread := rest, prompts := 1 }

/-- Run a session whose lines come from elsewhere; the prompt is not shown on the screen. -/
def runQuietly (ending : InputEnd) (lines : List String) (s : Session) : Outcome :=
  run id ending lines s

/-- The lines of an input. -/
def inputLines (input : String) : List String :=
  let lines := Text.partsAt '\n' input
  if lines.getLast? = some "" then lines.dropLast else lines

/-- What came of a whole session. -/
structure ProgramOutcome where
  result : Except Fault Int
  screen : Screen := []
  world : World

/-- Run an interactive session from start to end: the history is loaded, the banner is shown on a
terminal, and the lines of the input are executed. -/
def runProgram (world : World) (machine : Machine) (environment : Environment) (interactive : Bool)
    (input : String) : ProgramOutcome :=
  match Session.ofEnvironment world machine environment with
  | .error f => { result := .error f, world }
  | .ok s =>
    match { s with direct := true }.loadHistory with
    | (.error f, s) => { result := .error f, screen := s.screen, world := s.world }
    | (.ok _, s) =>
      let s := if interactive then s.display .out (banner ++ "\n") else s
      let o := run (fun s => s.display .out defaultPrompt) .endOfInput (inputLines input) s
      { result := o.result, screen := o.session.screen, world := o.session.world }

end CommandShell.Repl
