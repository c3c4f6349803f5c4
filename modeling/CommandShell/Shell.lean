import CommandShell.Pipeline

/-!
# The shell

A line is recorded in the history, and then run as a pipeline unless it asks for help. Lines that a
chat model has run are captured: what they write is returned instead of shown.
-/

namespace CommandShell

namespace Shell

/-- How deep commands may be run on behalf of commands. -/
def maxDepth : Nat := 160

/-- The start of every message about a line that is no pipeline. -/
def complaint (e : Stage.LineError) : String := "ai-shell: " ++ e.message ++ "\n"

/-- Run stages and return what they write, in a text that takes the place of the screen. What the
log echoes still goes to the screen. -/
def captureStages (capture : Builtin.Capture) (s : Session) (stages : List Stage) :
    Except Halt String × Session :=
  let o := Pipeline.run capture { s with screen := [], direct := false } stages
  let text := (Screen.written o.session.screen).text
  let session :=
    { o.session with screen := s.screen ++ Screen.echoes o.session.screen, direct := s.direct }
  match o.ending with
  | .ok _ => (.ok text, session)
  | .error (.exit _) => (.ok (text ++ "exit: not available here\n"), session)
  | .error h => (.error h, session)

/-- Run a line for a chat model and return what it writes. Lines are texts: a half of a pair that
stands alone in what the model asks for is taken for U+FFFD. -/
def capture : Nat → Builtin.Capture
  | 0, _, s => (.error (.fault .tooDeep), s)
  | depth + 1, line, s =>
    match line with
    | .str units =>
      match Stage.parse s units.text with
      | .error e => (.ok (complaint e), s)
      | .ok [] => (.ok "", s)
      | .ok stages => captureStages (capture depth) s stages
    | v => (.error (.fault (.notALine v)), s)

/-- Run a line and return what it writes. Commands may be run on its behalf as deep as on behalf of
a line that is not captured. -/
def captureLine (s : Session) (line : String) : Except Halt String × Session :=
  capture (maxDepth + 1) (.str (.ofString line)) s

/-- Run the stages of a pipeline in a session. -/
def runStages (s : Session) (stages : List Stage) : Pipeline.Outcome :=
  Pipeline.run (capture maxDepth) s stages

/-- Run a line as a pipeline. A line that is none is reported with status 2. -/
def runLine (s : Session) (line : String) : Except Halt Int × Session :=
  match Stage.parse s line with
  | .error e => (.ok 2, s.display .err (complaint e))
  | .ok [] => (.ok s.lastStatus, s)
  | .ok stages =>
    let o := runStages s stages
    (o.ending, o.session)

/-- The words that ask for help. -/
def helpWords : List String := ["help", "--help"]

/-- Whether a line asks for help: some word of it does and is not quoted. -/
def asksForHelp (line : String) : Bool :=
  (Word.tokenize line).any fun w => helpWords.contains w.text && !w.quoted

/-- The help text. -/
def helpText : String :=
  "Built-in commands

  cd [dir]                 change the working directory (default: $HOME)
  pwd                      print the working directory
  echo [-n] <text>         print text; -n suppresses the newline
  type <command>           show whether a command is a builtin or a program
  history [n]              show history, or the last n entries
  history -c               clear the history
  history -r|-w|-a [file]  read, write or append history (default: $HISTFILE)
  config get               show settings
  config set model <name>  choose the AI model
  config list models       list available AI models
  ai <question>            ask the AI assistant (alias: gemini)
  log [level]              show diagnostics (warnings, failed starts, ...)
  log -c                   clear the diagnostics log
  exit [code]              save history and quit

Operators

  cmd1 | cmd2              pipe output of cmd1 into cmd2
  > file, 1> file          write output to file
  >> file, 1>> file        append output to file
  2> file, 2>> file        write or append errors to file
  2>&1                     send errors wherever output goes

The AI commands need a chat client.  The ai-shell program starts without
one; a program embedding the shell passes it to ai_shell.repl.run().
Set AI_SHELL_DEBUG=1 to print warnings as they happen (=debug for all).
"

/-- Record a line and run it. A blank line does nothing. -/
def execute (s : Session) (line : String) : Except Halt Int × Session :=
  let stripped := Text.strip line
  if stripped = "" then (.ok s.lastStatus, s)
  else
    let s := { s with history := s.history.append stripped }
    if asksForHelp stripped then (.ok 0, { s.display .out helpText with lastStatus := 0 })
    else
      match runLine s stripped with
      | (.ok status, s) => (.ok status, { s with lastStatus := status })
      | (.error (.exit code), s) => (.error (.exit code), { s with lastStatus := code })
      | halted => halted

end Shell

end CommandShell
