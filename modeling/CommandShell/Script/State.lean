import CommandShell.Script.Fields
import CommandShell.Script.Signals
import CommandShell.Script.Token

/-!
# The state of a running script

What a script knows: its variables, parameters, functions, switches and traps, what it has
redirected, and the processes that it has started.
-/

namespace CommandShell.Script

/-- A variable; it may have properties and no value. -/
structure Variable where
  name : String
  value : Option String := none
  exported : Bool := false
  readOnly : Bool := false
  /-- The properties stay when the value is taken away. -/
  fixed : Bool := false
  deriving DecidableEq, Repr

/-- What is to be restored at the end of a function. -/
inductive Kept where
  | binding (name : String) (before : Option Variable)
  | switches (before : List String)
  deriving DecidableEq, Repr

/-- The commands after a command that are passed over. -/
inductive Skip where
  | none
  /-- Those of the loop. -/
  | loop
  /-- Those of this turn of the loop. -/
  | turn
  /-- Those of the function; its status has been given. -/
  | function
  /-- Those of the function; its status is that of the last command. -/
  | functionAsIs
  deriving DecidableEq, Repr

/-- Processes that were started together. -/
structure Job where
  /-- The processes, in the order in which they were started. -/
  processes : List Nat := []
  /-- Those of them that have not been waited for. -/
  running : List Nat := processes
  /-- How the last one ended. -/
  exit : Exit := .exited 0
  /-- Someone has asked for the status. -/
  asked : Bool := false
  deriving Repr

namespace Job

def isDone (j : Job) : Bool := j.running.isEmpty

/-- The process whose status counts. -/
def last (j : Job) : Nat := j.processes.getLastD 0

/-- The job after one of its processes has ended. -/
def note (j : Job) (pid : Nat) (e : Exit) : Job :=
  { j with running := j.running.erase pid, exit := if pid = j.last then e else j.exit }

end Job

structure State where
  /-- The name of the script. -/
  name : String := ""
  parameters : List String := []
  /-- Which parameter options are read from next, and how much of the one before has been read. -/
  optionIndex : Nat := 1
  optionOffset : Option Nat := none
  bindings : List Variable := []
  /-- What functions and commands that are running have changed for a while. -/
  kept : List (List Kept) := []
  functions : List (String × Command) := []
  aliases : List (String × String) := []
  /-- The texts that have followed commands. -/
  texts : List (Nat × Word) := []
  nextText : Nat := 0
  /-- The names of the switches that are on. -/
  switches : List String := []
  /-- Commands to be run at signals and, under zero, at the end. -/
  traps : List (Nat × String) := []
  /-- The signals that stay ignored. -/
  immune : List Nat := []
  /-- The signals that have come and have not been handled. -/
  arrived : List Nat := []
  status : Nat := 0
  /-- The status that the script had before a trap. -/
  statusBefore : Option Nat := none
  skip : Skip := .none
  skipCount : Nat := 0
  loops : Nat := 0
  /-- How many functions are running, and how many utilities. -/
  calls : Nat := 0
  depth : Nat := 0
  /-- The line of the last command, and the one that has been read last. -/
  line : Nat := 0
  lineRead : Nat := 1
  /-- The utility that is running. -/
  utility : Option String := none
  /-- The status of the last substitution. -/
  substituted : Nat := 0
  pid : Nat := 0
  parent : Nat := 0
  /-- The process that was started last in the background. -/
  lastStarted : Option Nat := none
  jobs : List (Option Job) := []
  /-- The script runs in a process that another script has split off. -/
  isChild : Bool := false
  directory : Place := []
  /-- The directory as the script came to it. -/
  told : String := "/"
  /-- Where descriptors led before they were redirected: to a copy or nowhere. -/
  redirected : List (List (Nat × Option Nat)) := []
  /-- The descriptors that the script keeps to itself. -/
  reserved : List Nat := []
  /-- The programs that were found along the search path, and in which of its directories. -/
  found : List (String × Nat) := []
  /-- What the running utility has written. -/
  written : List String := []
  /-- A trace of a command is being written. -/
  tracing : Bool := false
  mask : Nat := 18

namespace State

/-- The switches, by name and letter. -/
def switchTable : List (String × Option Char) :=
  [("errexit", some 'e'), ("noglob", some 'f'), ("ignoreeof", some 'I'), ("interactive", some 'i'),
   ("monitor", some 'm'), ("noexec", some 'n'), ("stdin", some 's'), ("xtrace", some 'x'),
   ("verbose", some 'v'), ("vi", some 'V'), ("emacs", some 'E'), ("noclobber", some 'C'),
   ("allexport", some 'a'), ("notify", some 'b'), ("nounset", some 'u'), ("privileged", some 'p'),
   ("nolog", none), ("debug", none)]

def isOn (s : State) (switch : String) : Bool := s.switches.contains switch

def turn (s : State) (switch : String) (on : Bool) : State :=
  let switches := s.switches.filter (· != switch)
  { s with switches := if on then switch :: switches else switches }

/-- The letters of the switches that are on. -/
def letters (s : State) : String :=
  String.ofList (switchTable.reverse.filterMap fun (name, letter) =>
    if s.isOn name then letter else none)

def lookUp? (s : State) (name : String) : Option Variable := s.bindings.find? fun v => v.name = name

/-- The value of a variable. -/
def value? (s : State) (name : String) : Option String := (s.lookUp? name).bind Variable.value

/-- Fill the entry of a variable, without any conditions. -/
def putVariable (s : State) (v : Variable) : State :=
  if s.bindings.any fun o => o.name = v.name then
    { s with bindings := s.bindings.map fun o => if o.name = v.name then v else o }
  else { s with bindings := v :: s.bindings }

def dropVariable (s : State) (name : String) : State :=
  { s with bindings := s.bindings.filter fun v => v.name ≠ name }

/-- The separators of fields. -/
def separators (s : State) : String := (s.value? "IFS").getD defaultSeparators

/-- The variables that the processes of a script get. -/
def environment (s : State) : List (String × String) :=
  s.bindings.filterMap fun v => if v.exported then v.value.map fun value =>
    (v.name, value) else none

def searchPath (s : State) : String := (s.value? "PATH").getD ""

/-- Whether there are commands to be run at signals or at the end. -/
def hasTraps (s : State) : Bool := s.traps.any fun t => t.2 ≠ ""

def trap? (s : State) (signal : Nat) : Option String := s.traps.lookup signal

/-- The signals that a trap is set for are caught or ignored. -/
def dispositionOf (s : State) (signal : Nat) : Signal.Disposition :=
  match s.trap? signal with
  | none => .default
  | some "" => .ignored
  | some _ => .caught

/-- The lowest descriptor that the script can keep to itself. -/
def freeDescriptor (s : State) : Nat :=
  ((List.range (s.reserved.length + 1)).map (· + Process.firstPrivate)).find?
    (fun d => !s.reserved.contains d) |>.getD Process.firstPrivate

/-- Put a job into the first place that is free. -/
def addJob (s : State) (job : Job) : Nat × State :=
  let isFree : Option Job → Bool
    | none => true
    | some j => j.isDone && j.asked
  match s.jobs.findIdx? isFree with
  | some i => (i, { s with jobs := s.jobs.set i (some job) })
  | none => (s.jobs.length, { s with jobs := s.jobs ++ [some job, none, none, none] })

def setJob (s : State) (i : Nat) (job : Option Job) : State := { s with jobs := s.jobs.set i job }

def job? (s : State) (i : Nat) : Option Job := s.jobs[i]?.bind id

/-- The place of the job that a running process belongs to. -/
def jobOf? (s : State) (pid : Nat) : Option Nat :=
  s.jobs.findIdx? fun j => j.any fun j => j.running.contains pid

/-- Note that a process has ended. -/
def note (s : State) (pid : Nat) (e : Exit) : State :=
  { s with jobs := s.jobs.map fun j => j.map fun j =>
    if j.running.contains pid then j.note pid e else j }

/-- The start of an error message. -/
def errorStart (s : State) : String :=
  let start := s.name ++ ": " ++ toString s.line ++ ": "
  match s.utility with
  | some utility => start ++ utility ++ ": "
  | none => start

end State

/-- Ways to leave the normal flow of commands. -/
inductive Flow where
  /-- An error, which has been reported. -/
  | failed
  /-- The script has asked to leave. -/
  | left
  /-- Nothing is left to be done. -/
  | ended
  deriving DecidableEq, Repr

end CommandShell.Script
