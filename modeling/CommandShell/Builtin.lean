import CommandShell.Lookup
import CommandShell.Session
import CommandShell.Text.Order

/-!
# Builtin commands

A builtin is a function of the session and its arguments. It does not write by itself: its reply
lists what it writes on each channel, and whoever runs it decides where that goes. Only `config` and
`ai` write by themselves, each text at once: their host may refuse it, and `ai` runs other commands
in between. A failure is reported on the error channel and by the status 1. Only `exit` asks the
shell to stop.
-/

namespace CommandShell

inductive Builtin where
  | exit
  | echo
  | pwd
  | cd
  | type
  | history
  | config
  | log
  | ai
  deriving DecidableEq, Repr

namespace Builtin

/-- The names of the builtins; `gemini` is a second name for `ai`. -/
def table : List (String × Builtin) :=
  [("exit", .exit), ("echo", .echo), ("pwd", .pwd), ("cd", .cd), ("type", .type),
    ("history", .history),
   ("config", .config), ("log", .log), ("ai", .ai), ("gemini", .ai)]

def names : List String := table.map Prod.fst

def ofName? (name : String) : Option Builtin :=
  (table.find? fun b => b.1 = name).map Prod.snd

/-- Something written on a channel. -/
abbrev Emission := Channel × String

/-- What came of running a builtin. -/
structure Reply where
  writes : List Emission := []
  session : Session
  /-- The status, unless the builtin halted. -/
  ending : Except Halt Int := .ok 0

def success (session : Session) (writes : List Emission := []) : Reply := { writes, session }

def failure (session : Session) (message : String) : Reply :=
  { writes := [(.err, message ++ "\n")], session, ending := .ok 1 }

def faulty (session : Session) (f : Fault) : Reply := { session, ending := .error (.fault f) }

/-- A way to run a command line for a chat model and return what it wrote. -/
abbrev Capture := Json → Session → Except Halt String × Session

/-- Save the history and ask the shell to stop. -/
def runExit (s : Session) (args : List String) : Reply :=
  let code := (args.head?.bind Text.integer?).getD 0
  match s.flushHistory with
  | (.ok (), s) => { session := s, ending := .error (.exit code) }
  | (.error f, s) => faulty s f

/-- Write the arguments with single spaces between them. -/
def runEcho (s : Session) (args : List String) : Reply :=
  match args with
  | "-n" :: rest => success s [(.out, String.intercalate " " rest)]
  | args => success s [(.out, String.intercalate " " args ++ "\n")]

/-- Write the working directory. -/
def runPwd (s : Session) : Reply := success s [(.out, s.cwd.text ++ "\n")]

/-- Make the directory at a path the working directory. -/
def enter (s : Session) (target : String) (path : Path) : Reply :=
  match s.world.exists? path with
  | .error f => faulty s f
  | .ok false =>
    failure s ("cd: " ++ (if target = "" then path.text else target) ++
      ": No such file or directory")
  | .ok true =>
    match s.world.isDir path with
    | .error f => faulty s f
    | .ok false => failure s ("cd: " ++ target ++ ": Not a directory")
    | .ok true =>
      match s.world.resolve path with
      | .error f => faulty s f
      | .ok real => success { s with cwd := real }

/-- Change the working directory. The arguments are joined by spaces; none, or a tilde, means the
home directory. -/
def runCd (s : Session) (args : List String) : Reply :=
  let target := String.intercalate " " args
  if target = "" || target = "~" then
    match s.home with
    | none => failure s "cd: HOME not set"
    | some home => enter s target home
  else enter s target (s.resolvePath target)

/-- What a name stands for in a session. -/
def resolveIn (s : Session) (name : String) : Resolution :=
  Lookup.resolve s.world names s.searchPath (some s.cwd) name

/-- How `type` reports a name. -/
def describe (s : Session) (name : String) : Emission :=
  match resolveIn s name with
  | .builtin => (.out, name ++ " is a shell builtin\n")
  | .external path => (.out, name ++ " is " ++ path.text ++ "\n")
  | .unresolved => (.err, name ++ ": not found\n")

/-- Report what each name stands for. -/
def runType (s : Session) (args : List String) : Reply :=
  if args.isEmpty then failure s "type: usage: type name [name ...]"
  else
    { writes := args.map (describe s)
      session := s
      ending := .ok (if args.all fun name => (resolveIn s name).isFound then 0 else 1) }

/-- A number in at least five columns. -/
def column (n : Nat) : String :=
  let ds := Nat.toDigits 10 n
  String.ofList (List.replicate (5 - ds.length) ' ' ++ ds)

/-- The listing of numbered entries. -/
def listing (entries : List (Nat × String)) : List Emission :=
  entries.map fun (n, entry) => (.out, column n ++ "  " ++ entry ++ "\n")

/-- An operation on the history and a file. -/
inductive HistoryFlag where
  | read
  | write
  | append
  deriving DecidableEq, Repr

def historyFlag? : String → Option HistoryFlag
  | "-r" => some .read
  | "-w" => some .write
  | "-a" => some .append
  | _ => none

/-- Read, write or append the history. -/
def transfer (s : Session) (flag : HistoryFlag) (file : Path) : Session × Except Fault Unit :=
  match flag with
  | .read =>
    match s.history.read s.world file with
    | .ok (h, _) => ({ s with history := h }, .ok ())
    | .error f => (s, .error f)
  | .write =>
    let (h, world, result) := s.history.write s.world file
    ({ s with history := h, world }, result)
  | .append =>
    let (h, world, result) := s.history.appendTo s.world file
    ({ s with history := h, world }, result.map fun _ => ())

/-- Show, clear, read, write or append the history. -/
def runHistory (s : Session) (args : List String) : Reply :=
  match args with
  | [] => success s (listing (s.history.numbered none))
  | "-c" :: _ => success { s with history := s.history.clear }
  | first :: rest =>
    match historyFlag? first with
    | some flag =>
      match (rest.head?.map s.resolvePath).or s.historyFile with
      | none => failure s ("history: " ++ first ++ ": missing file operand")
      | some file =>
        match transfer s flag file with
        | (s, .ok ()) => success s
        | (s, .error (.system e _)) =>
          failure s ("history: " ++ rest.head?.getD file.text ++ ": " ++ e.text)
        | (s, .error f) => faulty s f
    | none =>
      match Text.integer? first with
      | none => failure s ("history: " ++ first ++ ": numeric argument required")
      | some count => success s (listing (s.history.numbered (some (max count 0))))

/-- Settings in the order of their names, each on a line. -/
def settingLines (config : Settings.Config) : List CodeUnits :=
  (config.mergeSort fun a b => !List.lex b.1.codePoints a.1.codePoints (· < ·)).map fun (k, v) =>
    k ++ .ofString ": " ++ v ++ .ofString "\n"

/-- Change a setting; a model must be one that the chat client offers. -/
def changeSetting (s : Session) (file : Path) (key value : String) : Reply :=
  let unknown := match s.client with
    | some client => key = "model" && !client.models.contains value
    | none => false
  if unknown then failure s ("config: unknown model '" ++ value ++ "'")
  else
    match Settings.set s.world file key (.ofString value) with
    | (world, .ok ()) =>
      success { s with world } [(.out, "Configuration updated: " ++ key ++ " has been set.\n")]
    | (world, .error (.fault f)) => faulty { s with world } f
    | (world, .error e) => failure { s with world } ("config: " ++ e.message)

/-- Show the log from some level on, or clear it. -/
def runLog (s : Session) (args : List String) : Reply :=
  let showFrom (least : Option Log.Level) : Reply :=
    match s.log.filter least none with
    | [] => success s [(.out, "No log entries.\n")]
    | entries => success s (entries.map fun e => (.out, e.text ++ "\n"))
  match args with
  | [] => showFrom none
  | ["-c"] => success { s with log := s.log.clear }
  | [name] =>
    match Log.Level.ofName? name with
    | some level => showFrom (some level)
    | none => failure s ("log: " ++ (Fault.unknownLevel name).message)
  | _ => failure s "log: usage: log [-c | debug | info | warning | error]"

/-- Who runs a builtin: it has the session, and takes what is written. -/
structure Host (σ : Type) where
  session : σ → Session
  setSession : Session → σ → σ
  write : Channel → String → σ → σ
  /-- Whether what is written on a channel is encoded there. -/
  encodes : Channel → σ → Bool

variable {σ : Type}

/-- Write code units, which cannot be encoded unless they are whole characters. -/
def Host.writeUnits (h : Host σ) (channel : Channel) (units : CodeUnits) (x : σ) : Except Fault σ :=
  if h.encodes channel x && units.letters.any CodeUnits.Letter.isHalf then
    .error (.unencodable units)
  else .ok (h.write channel units.text x)

/-- Write lines until one cannot be encoded. -/
def Host.writeLines (h : Host σ) (channel : Channel) : List CodeUnits → σ → Except Halt Int × σ
  | [], x => (.ok 0, x)
  | line :: rest, x =>
    match h.writeUnits channel line x with
    | .ok x => h.writeLines channel rest x
    | .error f => (.error (.fault f), x)

/-- Hand the reply of a builtin to its host. -/
def Host.take (h : Host σ) (reply : Reply) (x : σ) : Except Halt Int × σ :=
  (reply.ending, reply.writes.foldl (fun x (c, text) => h.write c text x)
    (h.setSession reply.session x))

/-- Read and change settings. -/
def runConfig (h : Host σ) (args : List String) (x : σ) : Except Halt Int × σ :=
  let s := h.session x
  match s.settings, args with
  | none, _ => h.take (failure s "config: no configuration store") x
  | some file, ["get"] => h.writeLines .out (settingLines (Settings.get s.world file)) x
  | some _, ["list", "models"] =>
    match s.client with
    | none => h.take (failure s "config: no chat client configured") x
    | some client => h.take (success s (client.models.map fun m => (.out, m ++ "\n"))) x
  | some file, ["set", key, value] => h.take (changeSetting s file key value) x
  | some _, _ =>
    h.take (failure s "config: usage: config get | config set model <name> | config list models") x

/-- The host of a builtin as the partner of a conversation. -/
def Host.partner (h : Host σ) (client : Chat.Client) (capture : Capture) : Chat.Partner σ where
  ask message x :=
    let s := h.session x
    let messages := s.messages ++ [message]
    (client.answer messages, h.setSession { s with messages } x)
  run line x :=
    let (result, s) := capture line (h.session x)
    (result.map CodeUnits.ofString, h.setSession s x)
  write units x := h.writeUnits .out units x

/-- Ask the chat model, which may have shell commands run. -/
def runAi (h : Host σ) (capture : Capture) (args : List String) (x : σ) : Except Halt Int × σ :=
  let failed (message : String) (x : σ) : Except Halt Int × σ :=
    (.ok 1, h.write .err ("ai: " ++ message ++ "\n") x)
  match (h.session x).client with
  | none => failed "no chat client configured" x
  | some client =>
    let prompt := String.intercalate " " args
    if prompt = "" then failed "usage: ai <question>" x
    else
      let talk := Chat.converse (h.partner client capture) Chat.maxSteps prompt x
      match talk.ending with
      | .ok true => (.ok 0, talk.state)
      | .ok false => failed "no answer within the step limit" talk.state
      | .error (.fault f) =>
        if f.isReported then failed f.message talk.state else (.error (.fault f), talk.state)
      | .error halt => (.error halt, talk.state)

/-- Run a builtin on behalf of a host. -/
def runFor (h : Host σ) (capture : Capture) (b : Builtin) (args : List String) (x : σ) :
    Except Halt Int × σ :=
  let s := h.session x
  match b with
  | .exit => h.take (runExit s args) x
  | .echo => h.take (runEcho s args) x
  | .pwd => h.take (runPwd s) x
  | .cd => h.take (runCd s args) x
  | .type => h.take (runType s args) x
  | .history => h.take (runHistory s args) x
  | .config => runConfig h args x
  | .log => h.take (runLog s args) x
  | .ai => runAi h capture args x

/-- The host for which a builtin can take only so many more steps: each change of the session and
each text is one. -/
def Host.limited (h : Host σ) : Host (σ × Nat) where
  session x := h.session x.1
  setSession s x := if x.2 = 0 then x else (h.setSession s x.1, x.2 - 1)
  write channel text x := if x.2 = 0 then x else (h.write channel text x.1, x.2 - 1)
  encodes channel x := h.encodes channel x.1

/-- Run a builtin that an interrupt stops after so many steps, if there is one. -/
def runUntil (h : Host σ) (capture : Capture) (b : Builtin) (args : List String) (stop : Option Nat)
    (x : σ) : Except Halt Int × σ :=
  match stop with
  | none => b.runFor h capture args x
  | some n => (.error .interrupt, (b.runFor h.limited capture args (x, n)).2.1)

@[simp] theorem runUntil_none (h : Host σ) (capture : Capture) (b : Builtin) (args : List String)
    (x : σ) : b.runUntil h capture args none x = b.runFor h capture args x := rfl

/-- The host that keeps what is written. -/
def keeper : Host (Session × List Emission) where
  session x := x.1
  setSession s x := (s, x.2)
  write channel text x := (x.1, x.2 ++ [(channel, text)])
  encodes _ _ := false

/-- Run a builtin and keep what it writes. -/
def run (capture : Capture) (b : Builtin) (s : Session) (args : List String) : Reply :=
  let (ending, session, writes) := runFor keeper capture b args (s, [])
  { writes, session, ending }

end Builtin

end CommandShell
