import CommandShell.Pipeline.Ledger
import CommandShell.Pipeline.Outlet
import CommandShell.Pipeline.Reader
import CommandShell.Pipeline.Spawn

/-!
# A running pipeline

The stages of a pipeline are joined by couplers, which are pipes, each with a reading and a writing
end. The shell closes its copy of an end as soon as the end has been handed on, so that a reader
sees the end of its input. `Run` is the state of a pipeline that is being run, with its ledger.
-/

namespace CommandShell.Pipeline

/-- The state of a pipeline that is being run. -/
structure Run extends Ledger where
  session : Session
  /-- The pipes that the couplers are. -/
  couplers : List Nat := []
  wiring : Wiring
  pump : Pump Outlet := {}
  /-- The streams that the pump's readers read, with the outlets that they are for. -/
  streams : List (Nat × Outlet) := []

namespace Run

/-- Write something down. -/
def onLedger (r : Run) (f : Ledger → Ledger) : Run := { r with toLedger := f r.toLedger }

def note (r : Run) (e : Event) : Run := r.onLedger fun l => l.note e

/-- Act on the system. -/
def onKernel (r : Run) (f : Kernel → Kernel) : Run :=
  { r with session := (r.session.onKernel f).absorb }

def kernel (r : Run) : Kernel := r.session.world.toKernel

/-- Make pipes; the shell holds both ends of each. -/
def addPipes : Nat → Kernel → List Nat × Kernel
  | 0, k => ([], k)
  | n + 1, k =>
    let (pipe, k) := k.addPipe
    let (pipes, k) := addPipes n ((k.hold (.reader pipe)).hold (.writer pipe))
    (pipe :: pipes, k)

/-- A pipeline at its start: one coupler between any two stages. -/
def init (session : Session) (stages : List Stage) (wiring : Wiring) : Run :=
  let (couplers, system) := addPipes (stages.length - 1) session.world.toKernel
  { toLedger := Ledger.ofStages stages, session := session.onKernel fun _ => system,
    couplers, wiring }

/-- What a coupler end leads to. -/
def endHandle (r : Run) : CouplerEnd → Handle
  | .read i => ((r.couplers[i]?).map Handle.reader).getD .null
  | .write i => ((r.couplers[i]?).map Handle.writer).getD .null

/-- Close an end if the shell still holds it. -/
def closeEnd (r : Run) (e : CouplerEnd) : Run :=
  if r.isOpen e then (r.onKernel fun k => k.letGo (r.endHandle e)).onLedger fun l => l.close e
    else r

/-- Close ends that are still held, whatever they are. -/
def closeEnds (r : Run) (ends : List CouplerEnd) : Run := ends.foldl closeEnd r

/-- Close every end that the shell holds. -/
def closeAll (r : Run) : Run := r.closeEnds r.openEnds

/-- The end that a stage reads from. -/
def inputEnds (i : Nat) : List CouplerEnd := if i = 0 then [] else [.read (i - 1)]

/-- The end that a stage writes to. -/
def outputEnds (r : Run) (i : Nat) : List CouplerEnd :=
  if i + 1 < r.stages.length then [.write i] else []

/-- Record how a stage ended. -/
def complete (r : Run) (i : Nat) (status : Int) (pid : Option Nat := none) : Run :=
  r.onLedger fun l => l.complete i status pid

/-- Record how a stage ended unless that is known. -/
def completePending (r : Run) (i : Nat) (status : Int) : Run :=
  r.onLedger fun l => l.completePending i status

/-- Act on an outlet. -/
def onOutlet (r : Run) (f : Outlets → Session → Outlets × Session) : Run :=
  let (outlets, session) := f r.wiring.outlets r.session
  { r with wiring := { r.wiring with outlets }, session }

def write (r : Run) (outlet : Outlet) (text : String) : Run :=
  r.onOutlet (Outlets.write text outlet)

def flush (r : Run) (outlet : Outlet) : Run := r.onOutlet (Outlets.flush outlet)

def log (r : Run) (level : Log.Level) (message : String) (pid : Option Nat := none) : Run :=
  { r with session := r.session.note level "pipeline" message pid }

def isLast (r : Run) (i : Nat) : Bool := i + 1 = r.stages.length

/-- Where the errors of a stage go. -/
def errOutlet (r : Run) (i : Nat) : Outlet := if r.isLast i then r.wiring.err else .screen .err

/-- Report a command that was not found. -/
def notFound (r : Run) (i : Nat) (stage : Stage) : Run :=
  let outlet := r.errOutlet i
  let r := (r.write outlet (stage.command ++ ": command not found\n")).flush outlet
  let r := r.log .warning ("command not found: " ++ stage.command)
  r.onLedger fun l => l.miss i

/-- Report a program that could not be started. -/
def cannotStart (r : Run) (i : Nat) (stage : Stage) (e : StartError) : Run :=
  let outlet := r.errOutlet i
  let r := r.log .warning ("cannot start " ++ stage.command ++ ": " ++ e.message)
  let r := (r.write outlet (stage.command ++ ": " ++ e.error.text ++ "\n")).flush outlet
  r.onLedger fun l => l.refuse i

/-- Flush an outlet and say what a program that writes to it is given. A stream is made for what the
program cannot write to by itself; it is attached to the pump once the program has been started. -/
def routeTo (r : Run) (outlet : Outlet) : Run × Handle × List (Nat × Outlet) :=
  let r := r.flush outlet
  match r.wiring.outlets.handle? outlet with
  | some h => (r, h, [])
  | none =>
    let n := r.kernel.nextNumber
    (r.onKernel fun k => { k with nextNumber := n + 1 }, .tap (.stream n), [(n, outlet)])

/-- Attach streams to the pump. -/
def attach (r : Run) (streams : List (Nat × Outlet)) : Run :=
  streams.foldl (fun r stream => { r with pump := r.pump.attach, streams := r.streams ++ [stream] })
    r

/-- What the program of a stage reads from. Only a program that is alone is given the shell's own
input. -/
def inputHandle (r : Run) : Nat → Handle
  | 0 => if r.stages.length = 1 then r.session.inputHandle else .null
  | i + 1 => r.endHandle (.read i)

/-- What the descriptors of a program lead to, and the streams that were made for them. -/
def descriptorsFor (r : Run) (i : Nat) (merges : Bool) :
    Run × List (Nat × Handle) × List (Nat × Outlet) :=
  let input := r.inputHandle i
  let (r, out, outStreams) :=
    if r.isLast i then r.routeTo r.wiring.out else (r, r.endHandle (.write i), [])
  let (r, err, errStreams) :=
    if r.isLast i && merges then (r, out, []) else r.routeTo (r.errOutlet i)
  (r, [(0, input), (1, out), (2, err)], outStreams ++ errStreams)

/-- The ends of a stage are handed to it. -/
def handAll (r : Run) (i : Nat) (ends : List CouplerEnd) : Run :=
  ends.foldl (fun r e => r.note (.handed e i)) r

/-- Start the program of a stage. -/
def spawnProgram (r : Run) (i : Nat) (stage : Stage) (path : Path) : Option Halt × Run :=
  let ends := inputEnds i ++ r.outputEnds i
  let (r, descriptors, streams) := r.descriptorsFor i stage.redirections.merges
  let r := r.handAll i ends
  let arguments := stage.command :: stage.args
  match textFault? arguments r.session.environment with
  | some f => (some (.fault f), r.closeEnds ends)
  | none =>
    match start r.session arguments path with
    | .error e => (none, (r.cannotStart i stage e).closeEnds ends)
    | .ok process =>
      let (pid, system) := r.kernel.spawn process descriptors
      let r := ((r.onKernel fun _ => system).onLedger fun l => l.start i pid).closeEnds ends
      (none, (r.log .debug ("started " ++ stage.command) (some pid)).attach streams)

/-- Start a stage if it is a program; a builtin reads nothing, so its reading end is closed. -/
def spawn (r : Run) (i : Nat) (stage : Stage) : Option Halt × Run :=
  match stage.target with
  | .builtin _ => (none, r.closeEnds (inputEnds i))
  | .program none => (none, (r.notFound i stage).closeEnds (inputEnds i ++ r.outputEnds i))
  | .program (some path) => r.spawnProgram i stage path

/-- Start the programs from left to right. -/
def spawnAll : List (Stage × Nat) → Run → Option Halt × Run
  | [], r => (none, r)
  | (stage, i) :: rest, r =>
    match r.spawn i stage with
    | (none, r) => spawnAll rest r
    | halted => halted

/-- Where a builtin writes. -/
def outOutlet (r : Run) (i : Nat) : Outlet := if r.isLast i then r.wiring.out else .next

/-- Where a channel of a builtin goes. -/
def outletFor (r : Run) (i : Nat) : Channel → Outlet
  | .out => r.outOutlet i
  | .err => r.errOutlet i

/-- The run as the host of the builtin of a stage. -/
def host (i : Nat) : Builtin.Host Run where
  session r := r.session
  setSession s r := { r with session := s }
  write channel text r := r.write (r.outletFor i channel) text
  encodes channel r := r.wiring.outlets.encodes (r.outletFor i channel)

/-- Let a sink take over the writing end of the coupler behind a stage. -/
def wrapEnd (r : Run) (i : Nat) : Run :=
  let sink := Sink.ofHandle (r.endHandle (.write i))
  { r.onLedger fun l => l.wrap (.write i) with
    wiring := { r.wiring with outlets := r.wiring.outlets.setHeldSink .next sink } }

/-- Close the sink that has taken over the writing end of the coupler behind a stage. -/
def closeNext (r : Run) (i : Nat) : Run :=
  (r.onOutlet (Outlets.close .next)).onLedger fun l => l.close (.write i)

/-- Call the builtin of a stage, which an interrupt may stop. Whatever comes of it, what it has
written is handed on. -/
def callBuiltin (capture : Builtin.Capture) (r : Run) (i : Nat) (stage : Stage) (b : Builtin)
    (stops : Nat → Option Nat := fun _ => none) : Except Halt Int × Run :=
  let r := if r.isLast i then r else r.wrapEnd i
  let r := (r.log .debug ("builtin " ++ stage.command)).note (.called i)
  let (ending, r) := b.runUntil (host i) capture stage.args (stops i) r
  let r := r.note (.returned i ending)
  let r := if r.isLast i then r.flush r.wiring.out else r.closeNext i
  (ending, r.flush (r.errOutlet i))

/-- Run the builtin of a stage. A lone `exit` halts the pipeline; another one only ends its
stage. -/
def runBuiltin (capture : Builtin.Capture) (r : Run) (i : Nat) (stage : Stage) (b : Builtin)
    (stops : Nat → Option Nat := fun _ => none) : Option Halt × Run :=
  match r.callBuiltin capture i stage b stops with
  | (.ok status, r) => (none, r.complete i status)
  | (.error (.exit code), r) =>
    (if r.stages.length = 1 then some (.exit code) else none, r.complete i code)
  | (.error h, r) => (some h, r)

/-- Run the builtins from left to right. -/
def runBuiltins (capture : Builtin.Capture) (indexed : List (Stage × Nat)) (r : Run)
    (stops : Nat → Option Nat := fun _ => none) : Option Halt × Run :=
  match indexed with
  | [] => (none, r)
  | (stage, i) :: rest =>
    match stage.target with
    | .program _ => runBuiltins capture rest r stops
    | .builtin b =>
      match r.runBuiltin capture i stage b stops with
      | (none, r) => runBuiltins capture rest r stops
      | halted => halted

/-- Whether someone still writes to a stream of the pump. -/
def isFed (streams : List (Nat × Outlet)) (k : Kernel) : Bool :=
  streams.any fun s => k.isHeld (.tap (.stream s.1))

/-- The stream that something came out of, if the pump reads it. -/
def streamOf (streams : List (Nat × Outlet)) (spill : Spill) : Option (Nat × Outlet) :=
  match spill.tap with
  | .stream n => streams.find? fun s => s.1 = n
  | .screen _ => none

/-- Let the programs run until nobody writes to a stream any more, and queue what was written. -/
def gather (r : Run) : Run :=
  let r := r.onKernel fun k => k.runPatiently fun k => !isFed r.streams k
  let (mine, others) := r.kernel.spilled.partition fun spill => (streamOf r.streams spill).isSome
  let chunks := Reader.chunks (mine.reverse.filterMap fun spill =>
    (streamOf r.streams spill).map fun s => (s.2, spill))
  let pump := chunks.foldl (fun pump (outlet, chunk) => pump.post outlet chunk) r.pump
  let pump := r.streams.foldl (fun pump s => pump.finish s.2) pump
  { r.onKernel (fun k => { k with spilled := others }) with pump, streams := [] }

/-- Wait for a program and record how it ended. -/
def awaitJob (r : Run) (job : Job) : Run :=
  let r := r.onKernel fun k => k.await job.pid
  r.onLedger fun l => l.finish job (r.kernel.exitOf job.pid)

/-- Wait for programs. A budget limits how many are waited for; `none` is an interrupt. -/
def collect : List Job → Option Nat → Run → Run × Option (Option Nat)
  | [], budget, r => (r, some budget)
  | _ :: _, some 0, r => (r, none)
  | job :: rest, budget, r => collect rest (budget.map (· - 1)) (r.awaitJob job)

/-- Wait for the pump, and write what it has. -/
def drain (budget : Option Nat) (r : Run) : Run × Pump.Stop :=
  let r := r.gather
  let write (outlet : Outlet) (chunk : Bytes) (state : Outlets × Session) : Outlets × Session :=
    Outlets.writeBytes chunk outlet state.1 state.2
  let (pump, (outlets, session), stop) := r.pump.drain write budget (r.wiring.outlets, r.session)
  ({ r with pump, session, wiring := { r.wiring with outlets } }, stop)

/-- Wait for the pump and for the programs. A budget limits the steps of waiting; `none` is an
interrupt. -/
def waitOnce (budget : Option Nat) (r : Run) : Run × Option (Option Nat) :=
  match r.drain budget with
  | (r, .drained left) => collect r.jobs left r
  | (r, .interrupted) => (r, none)
  | (r, .starved) => (r, some none)

/-- Send an interrupt to the programs that have not ended. -/
def interruptPrograms (r : Run) : Run :=
  r.onKernel fun k => r.jobs.foldl (fun k job => k.send job.pid Signal.interrupt) k.settle

/-- Wait until all is done, from the beginning again after each interrupt; those that are still to
come are left. -/
def await : List Nat → Run → Run
  | [], r => (waitOnce none r).1
  | 0 :: rest, r => await rest { r.interruptPrograms with session.interrupts := rest }
  | (n + 1) :: rest, r =>
    match waitOnce (some (n + 1)) r with
    | (r, none) => await rest { r.interruptPrograms with session.interrupts := rest }
    | (r, some left) => { r with session.interrupts := left.getD 0 :: rest }

/-- Wait for the programs. What they have left behind goes on by itself. -/
def join (r : Run) : Run :=
  let r := r.note (.waiting r.kernel.held)
  let r := await r.session.interrupts r
  r.onKernel fun k => (r.jobs.foldl (fun k job => k.reap job.pid) k).settle

/-- Close what is open and flush the screen. -/
def tidy (r : Run) : Run :=
  let r := r.closeAll
  let r := r.onOutlet (Outlets.close (.file .out))
  let r := r.onOutlet (Outlets.close (.file .err))
  (r.flush (.screen .out)).flush (.screen .err)

/-- Leave the programs to themselves: what they do to files happens, what the pump would move is
lost. -/
def abandon (r : Run) : Run := r.onKernel Kernel.settle

/-- Mark the builtins that have not ended as interrupted. -/
def interruptBuiltins (r : Run) : List (Stage × Nat) → Run
  | [] => r
  | (stage, i) :: rest =>
    (if stage.isBuiltin then r.completePending i statusInterrupted else r).interruptBuiltins rest

/-- The status of the last stage. -/
def lastStatus (r : Run) : Int :=
  match r.results.getLast? with
  | some (some result) => result.status
  | _ => 1

end Run

end CommandShell.Pipeline
