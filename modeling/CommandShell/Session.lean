import CommandShell.Chat.Conversation
import CommandShell.History
import CommandShell.Log
import CommandShell.Machine
import CommandShell.Screen
import CommandShell.Settings

/-!
# Sessions

Everything that the commands of a session may see and change. The working directory is the session's
own and not that of the process around it.
-/

namespace CommandShell

structure Session where
  environment : Environment := {}
  cwd : Path
  history : History := {}
  log : Log Channel := {}
  /-- The file with the settings. -/
  settings : Option Path := none
  client : Option Chat.Client := none
  /-- What the chat client has been sent. -/
  messages : List String := []
  lastStatus : Int := 0
  world : World
  machine : Machine
  screen : Screen := []
  /-- Whether the screen is a real terminal that programs can write to by themselves. -/
  direct : Bool := false
  /-- The interrupts that come while the shell waits for programs: each after so many steps of
  waiting. -/
  interrupts : List Nat := []
  /-- The pipe that the shell's own input comes from; without one there is nothing to be read. -/
  input : Option Nat := none

namespace Session

/-- The directories of the search path. -/
def searchPath (s : Session) : List String :=
  (Text.partsAt ':' ((s.environment.get? "PATH").getD "")).filter (· != "")

/-- The home directory. -/
def home (s : Session) : Option Path :=
  ((s.environment.nonempty? "HOME").or (s.environment.nonempty? "USERPROFILE")).map Path.ofText

/-- Put the home directory for a tilde that stands alone or before a slash. -/
def expandHome (s : Session) (path : String) : String :=
  match s.home, path.toList with
  | some home, ['~'] => home.text
  | some home, '~' :: '/' :: rest => home.text ++ String.ofList ('/' :: rest)
  | _, _ => path

/-- The path that a user means by a text: the home directory is put for a tilde, and a relative path
starts at the working directory. -/
def resolvePath (s : Session) (path : String) : Path :=
  s.cwd.join (Path.ofText (s.expandHome path))

/-- The history file. -/
def historyFile (s : Session) : Option Path :=
  (s.environment.nonempty? "HISTFILE").map s.resolvePath

/-- What a program reads from that is given the shell's own input. -/
def inputHandle (s : Session) : Handle := s.input.elim .null Handle.reader

/-- Write on the terminal. -/
def display (s : Session) (channel : Channel) (text : String) : Session :=
  { s with screen := s.screen.showText channel text }

/-- Act on the system. -/
def onKernel (s : Session) (f : Kernel → Kernel) : Session :=
  { s with world := { s.world with toKernel := f s.world.toKernel } }

/-- What programs have written to the screen by themselves, as the screen shows it. -/
def shownOf (spill : Spill) : Option Shown :=
  match spill.tap with
  | .screen channel => some { channel, chunk := .raw (unpack spill.bytes) }
  | .stream _ => none

/-- Put on a real terminal what programs have written to it by themselves. -/
def absorb (s : Session) : Session :=
  if s.direct && !s.world.spilled.isEmpty then
    let shown := s.world.spilled.reverse.filterMap shownOf
    let kept := s.world.spilled.filter fun spill => (shownOf spill).isNone
    { s.onKernel (fun k => { k with spilled := kept }) with screen := s.screen ++ shown }
  else s

/-- Add a record to the log and echo it if the log asks for it. -/
def note (s : Session) (level : Log.Level) (source message : String) (pid : Option Nat := none) :
    Session :=
  let (log, echoed) := s.log.record { level, message, source, pid := pid.map Int.ofNat }
  match echoed with
  | none => { s with log }
  | some (channel, line) =>
    { s with log, screen := s.screen ++ [{ channel, chunk := .text line, echo := true }] }

/-- Load the history file, if there is one, and return the number of entries. A file that cannot be
read is noted in the log. -/
def loadHistory (s : Session) : Except Fault Nat × Session :=
  match s.historyFile with
  | none => (.ok 0, s)
  | some file =>
    match s.history.load s.world file with
    | .ok (history, count) =>
      (.ok count, { s with history }.note .debug "history"
        ("loaded " ++ toString count ++ " entries from " ++ file.text))
    | .error (.system e p) =>
      (.ok 0, s.note .info "history" ("no history loaded: " ++ (Fault.system e p).message))
    | .error f => (.error f, s)

/-- Store the history in its file, if there is one. A file that cannot be written is noted in the
log. -/
def flushHistory (s : Session) : Except Fault Unit × Session :=
  match s.historyFile with
  | none => (.ok (), s)
  | some file =>
    match s.history.write s.world file with
    | (history, world, .ok ()) => (.ok (), { s with history, world })
    | (history, world, .error (.system e p)) =>
      (.ok (), { s with history, world }.note .error "history"
        ("cannot save history: " ++ (Fault.system e p).message))
    | (history, world, .error f) => (.error f, { s with history, world })

/-- The least level that is echoed: all levels if the value is `debug`, in letters of any case, else
warnings and errors. -/
def debugLevel (value : String) : Log.Level :=
  if value.toList.map Char.toLower = "debug".toList then .debug else .warning

/-- A session made from the variables of a process: it has settings, and a log that echoes on the
terminal if the variables ask for it. -/
def ofEnvironment (world : World) (machine : Machine) (environment : Environment) :
    Except Fault Session :=
  (Settings.pathFor world environment).map fun settings =>
    let log : Log Channel := match environment.nonempty? "AI_SHELL_DEBUG" with
      | some value => { echo := some { stream := .err, least := debugLevel value } }
      | none => {}
    { environment, world, machine, log, cwd := Path.ofParts world.directory,
      settings := some settings }

end Session

end CommandShell
