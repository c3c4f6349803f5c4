import CommandShell.Script.Utility.Basic

/-!
# Jobs

Processes that a script has started, and the signals that come while it waits for them.
-/

namespace CommandShell.Script

namespace Act

/-- The script dies of a signal. -/
def die {α : Type} (signal : Nat) : Act α := fun _ _ _ =>
  .self fun pid _ _ => .dispose signal .default fun _ => .kill pid signal fun _ => .exhausted

/-- Take note of the signals that have come. -/
def collect : Act Unit := do
  let signals ← caught
  if !signals.isEmpty then
    modify fun s => { s with arrived := s.arrived ++ signals.filter fun n => !s.arrived.contains n }

/-- Write what the running utility has written so far; the result is whether that worked. -/
def flush : Act Bool := do
  let s ← get
  if s.written.isEmpty then return true
  set { s with written := [] }
  match ← write 1 (String.join s.written.reverse) with
  | .ok _ => return true
  | .error _ => return false

/-- Report a process that was killed. -/
def report : Exit → Act Unit
  | .exited _ => return
  | .killed signal => if Signal.isQuiet signal then return else say (Signal.text signal ++ "\n")

/-- Take note of the children that have ended. -/
def reap : Nat → Act Unit
  | 0 => return
  | fuel + 1 => do
    match ← wait .none with
    | .ok (pid, e) => do
      modify fun s => s.note pid e
      reap fuel
    | .error _ => return

/-- How many children are waited for at once. -/
def maxChildren : Nat := 10000

/-- Take note of the children that have ended, if there can be any. -/
def reapAll : Act Unit := do
  if (← get).jobs.any fun j => j.any fun j => !j.isDone then reap maxChildren

/-- Wait until a job is done, and report those of its processes that were killed. The result is
whether nothing came between. -/
def awaitJob (place : Nat) (patience : Patience) : Nat → Act Bool
  | 0 => return true
  | fuel + 1 => do
    let s ← get
    if ((s.job? place).map Job.isDone).getD true then
      reapAll
      return true
    match ← wait patience with
    | .error .interrupted => do
      reapAll
      return false
    | .error _ => return true
    | .ok (pid, e) => do
      modify fun s => s.note pid e
      if s.jobOf? pid = some place then report e
      awaitJob place patience fuel

/-- Wait for a job and forget it. An interrupt that comes meanwhile takes effect after it. -/
def awaitForeground (place : Nat) : Act Nat := do
  let s ← get
  let defers := (s.trap? Signal.interrupt).isNone && !s.immune.contains Signal.interrupt
  if defers then dispose Signal.interrupt .caught
  let _ ← awaitJob place .untilEnd maxChildren
  if defers then
    collect
    if (← get).arrived.contains Signal.interrupt then die Signal.interrupt
    dispose Signal.interrupt .default
  let exit := (((← get).job? place).map Job.exit).getD (.exited 0)
  modify fun s => s.setJob place none
  return exit.status

/-- Start a job of one process and wait for it. -/
def foreground (start : Act Nat) : Act Nat := do
  let (place, s) := (← get).addJob {}
  set s
  let pid ← start
  modify fun s => s.setJob place (some { processes := [pid] })
  awaitForeground place

end Act

namespace Utility

/-- The places of jobs, those that were started last first. -/
def jobOrder (s : State) : List Nat :=
  let indexed := s.jobs.zipIdx.filterMap fun (j, i) => j.map fun j => (j.last, i)
  (indexed.mergeSort fun a b => a.1 ≥ b.1).map Prod.snd

/-- The place of the job that a text names. -/
def jobNamed (text : String) : Act Nat := do
  let s ← Act.get
  let order := jobOrder s
  let missing : Act Nat := Act.fail ("No such job: " ++ text)
  let current (i : Nat) : Act Nat := do
    match order[i]? with
    | some j => return j
    | none => Act.fail (if i = 0 then "No current job" else "No previous job")
  match text.toList with
  | [] | ['%'] | ['%', '%'] | ['%', '+'] => current 0
  | ['%', '-'] => current 1
  | '%' :: cs =>
    if cs.all Char.isDigit then
      match decimal cs with
      | 0 => missing
      | n + 1 => if (s.job? n).isSome then return n else missing
    else missing
  | _ => missing

/-- Note that someone has asked for the status of a job. -/
def markAsked (place : Nat) : Act Unit := Act.modify fun s =>
  s.setJob place ((s.job? place).map fun job => { job with asked := true })

/-- The status after a wait that a signal has ended. -/
def interrupted : Act Nat := do
  Act.collect
  return Exit.signalBase + ((← Act.get).arrived.getLast?.getD 0)

/-- Wait for all jobs. -/
def waitAll : Nat → Act Nat
  | 0 => return 0
  | fuel + 1 => do
    let s ← Act.get
    let isDone (place : Nat) : Bool := ((s.job? place).map Job.isDone).getD true
    let order := jobOrder s
    (order.takeWhile isDone).forM markAsked
    if order.all isDone then return 0
    match ← Act.wait .untilSignal with
    | .ok (pid, e) => do
      Act.modify fun s => s.note pid e
      Act.reapAll
      waitAll fuel
    | .error .interrupted => do
      Act.reapAll
      interrupted
    | .error _ => return 0

/-- Wait for jobs by their names and the numbers of their processes. -/
def waitEach (status : Nat) : List String → Act Nat
  | [] => return status
  | text :: rest => do
    let place ← if text.startsWith "%" then (do return some (← jobNamed text)) else do
      let pid ← Act.count text
      let s ← Act.get
      pure ((jobOrder s).find? fun place => (s.job? place).any fun j => j.last = pid)
    match place with
    | none => waitEach status rest
    | some place =>
      if ← Act.awaitJob place .untilSignal Act.maxChildren then
        markAsked place
        waitEach ((((← Act.get).job? place).map fun j => j.exit.status).getD 0) rest
      else interrupted

def wait (args : List String) : Act Nat := do
  let (_, names) ← options "" args
  if names.isEmpty then waitAll Act.maxChildren else waitEach 127 names

/-- How a job is doing. -/
def jobText (job : Job) : String :=
  if !job.isDone then "Running"
  else
    match job.exit with
    | .exited 0 => "Done"
    | .exited n => "Done(" ++ toString n ++ ")"
    | .killed signal => Signal.text signal

/-- What is shown of a job. -/
inductive JobView where
  | state
  /-- The state with the numbers of the processes. -/
  | long
  /-- The number of the first process. -/
  | process
  deriving DecidableEq, Repr

/-- The lines that show a job; `mark` says where it stands among the others. -/
def jobLines (view : JobView) (place : Nat) (mark : String) (job : Job) : String :=
  let pad (line : String) : String :=
    line ++ String.ofList (List.replicate (max 1 (33 - line.length)) ' ')
  let first := toString (job.processes.headD 0)
  let lead := "[" ++ toString (place + 1) ++ "] " ++ mark ++ " "
  let others := job.processes.drop 1
  match view with
  | .process => first ++ "\n"
  | .state => pad (lead ++ jobText job) ++ String.join (others.map fun _ => " | ") ++ "\n"
  | .long =>
    let indent := String.ofList (List.replicate lead.length ' ')
    pad (lead ++ first ++ " " ++ jobText job) ++
      String.join (others.map fun pid => " |\n" ++ pad (indent ++ toString pid ++ " ")) ++ "\n"

/-- Show a job, which is forgotten then if it is done. -/
def showJob (view : JobView) (place : Nat) : Act Unit := do
  let s ← Act.get
  match s.job? place with
  | none => return
  | some job =>
    let order := jobOrder s
    let mark := if order[0]? = some place then "+" else if order[1]? = some place then "-" else " "
    Act.put (jobLines view place mark job)
    if job.isDone && view ≠ .process then Act.set { (← Act.get) with jobs := s.jobs.set place none }

def jobs (args : List String) : Act Nat := do
  let (given, names) ← options "lp" args
  let view := match given.getLast?.map Given.letter with
    | none => JobView.state
    | some 'l' => .long
    | some _ => .process
  if names.isEmpty then
    Act.reapAll
    (jobOrder (← Act.get)).forM (showJob view)
  else
    for name in names do
      showJob view (← jobNamed name)
  return 0

/-- Jobs cannot be moved between foreground and background. -/
def moveJob (args : List String) : Act Nat := do
  let (_, names) ← options "" args
  let _ ← jobNamed (names.head?.getD "")
  Act.fail ("job " ++ names.head?.getD "(null)" ++ " not created under job control")

/-- The signal that a number or a name stands for. -/
def signal? (least : Nat) (text : String) : Option Nat :=
  if !text.isEmpty && text.toList.all Char.isDigit then
    let n := decimal text.toList
    if n < Signal.count then some n else none
  else (Signal.ofName? text).filter (· ≥ least)

/-- Whether a text is the number of a signal. -/
def isSignalNumber (text : String) : Bool :=
  !text.isEmpty && text.toList.all Char.isDigit && decimal text.toList < Signal.count

/-- Let a signal be handled as the traps say. -/
def follow (signal : Nat) : Act Unit := do
  let s ← Act.get
  if signal ≠ 0 && !s.immune.contains signal then Act.dispose signal (s.dispositionOf signal)

/-- Set or remove the trap for signals. -/
def setTraps (action : Option String) : List String → Act Nat
  | [] => return 0
  | text :: rest => do
    match signal? 0 text with
    | none => do
      Act.say ("trap: " ++ text ++ ": bad trap\n")
      return 1
    | some signal => do
      Act.modify fun s =>
        let others := s.traps.filter fun t => t.1 ≠ signal
        { s with traps := match action with
          | some a => (signal, a) :: others
          | none => others }
      follow signal
      setTraps action rest

def trap (args : List String) : Act Nat := do
  let (_, args) ← options "" args
  match args with
  | [] =>
    let s ← Act.get
    let ordered := s.traps.mergeSort fun a b => a.1 ≤ b.1
    for (signal, action) in ordered do
      Act.put ("trap -- " ++ singleQuoted action ++ " " ++ Signal.name signal ++ "\n")
    return 0
  | [text] => setTraps none [text]
  | action :: signals =>
    if isSignalNumber action then setTraps none args
    else setTraps (if action = "-" then none else some action) signals

def killUsage {α : Type} : Act α :=
  Act.fail "Usage: kill [-s sigspec | -signum | -sigspec] [pid | job]... or\nkill -l [exitstatus]"

/-- Show the names of signals. -/
def listSignals (args : List String) : Act Nat := do
  match args with
  | [] =>
    Act.put (String.intercalate "\n" ("0" :: Signal.names.drop 1) ++ "\n")
    return 0
  | text :: _ =>
    let n ← Act.count text
    let n := if n > Exit.signalBase then n - Exit.signalBase else n
    if 0 < n && n < Signal.count then
      Act.put (Signal.name n ++ "\n")
      return 0
    else Act.fail ("invalid signal number or exit status: " ++ text)

/-- Send a signal to processes. -/
def sendTo (signal status : Nat) : List String → Act Nat
  | [] => return status
  | text :: rest => do
    let pid ← if text.startsWith "%" then (do let _ ← jobNamed text; return none)
      else if text.startsWith "-" then
        (do let _ ← Act.count (String.ofList (text.toList.drop 1)); return none)
      else (do return some (← Act.count text))
    let sent ← match pid with
      | some pid => Act.kill pid signal
      | none => pure (.error .noProcess)
    match sent with
    | .ok _ => sendTo signal status rest
    | .error e => do
      Act.warn (e.text ++ "\n")
      sendTo signal 1 rest

def kill (args : List String) : Act Nat := do
  if args.isEmpty then killUsage
  let text := args.head?.getD ""
  let direct := if text.startsWith "-" then signal? 1 (String.ofList (text.toList.drop 1)) else none
  let (signal, lists, targets) ← match direct with
    | some signal => pure (some signal, false, args.drop 1)
    | none =>
      if text.startsWith "-" then do
        let (given, rest) ← options "ls:" args
        let signal ← match given.find? fun g => g.letter = 's' with
          | none => pure none
          | some g =>
            match signal? 1 g.argument with
            | some signal => pure (some signal)
            | none => Act.fail ("invalid signal number or name: " ++ g.argument)
        pure (signal, has given 'l', rest)
      else pure (none, false, args)
  let signal := if lists then signal else some (signal.getD Signal.terminate)
  if (signal.isNone || targets.isEmpty) != lists then killUsage
  if lists then listSignals targets else sendTo (signal.getD 0) 0 targets

def times (_ : List String) : Act Nat := do
  Act.put "0m0.000000s 0m0.000000s\n0m0.000000s 0m0.000000s\n"
  return 0

def ulimit (args : List String) : Act Nat := do
  let _ ← options "HSatfdscmlpnvwr" args
  Act.put "unlimited\n"
  return 0

end Utility

end CommandShell.Script
