import CommandShell.Channel
import CommandShell.Process

/-!
# The system

The files, the processes that run, and what their descriptors lead to. The shell is not one of the
processes; it holds some ends of pipes and some open files itself, and it takes what processes write
to its taps.
-/

namespace CommandShell

/-- A place where what processes write comes out of the system. -/
inductive Tap where
  | screen (channel : Channel)
  | stream (number : Nat)
  deriving DecidableEq, Repr

/-- What a descriptor leads to. -/
inductive Handle where
  /-- Nothing is read, and what is written is lost. -/
  | null
  | directory
  /-- An open file, which others may share. -/
  | file (number : Nat)
  /-- The end of a pipe that is read from. -/
  | reader (pipe : Nat)
  /-- The end of a pipe that is written to. -/
  | writer (pipe : Nat)
  | tap (t : Tap)
  deriving DecidableEq, Repr

/-- A process in the system. -/
structure Task where
  pid : Nat
  parent : Nat
  process : Process
  descriptors : List (Nat × Handle) := []
  ignored : List Nat := []
  caught : List Nat := []
  /-- Signals that have been caught and not been taken. -/
  pending : List Nat := []
  /-- When the task is to be woken. -/
  wakeAt : Option Nat := none
  /-- The task does nothing until it is told to go on. -/
  stopped : Bool := false
  /-- How the task ended, until its parent has asked for it. -/
  ended : Option Exit := none

/-- Something that came out of a tap. -/
structure Spill where
  tap : Tap
  time : Nat
  bytes : ByteArray

structure Kernel where
  files : FileSystem := {}
  opened : List (Nat × FileSystem.OpenFile) := []
  /-- What is in the pipes. -/
  pipes : List (Nat × ByteArray) := []
  tasks : List Task := []
  /-- What the shell itself holds. -/
  held : List Handle := []
  /-- What has come out of the taps, newest first. -/
  spilled : List Spill := []
  /-- The time in microseconds. -/
  clock : Nat := 1000000
  /-- How many rounds are run before something is given up. -/
  patience : Nat := 200000
  nextPid : Nat := 100
  nextNumber : Nat := 0

namespace Task

/-- Where a descriptor leads. -/
def handle? (t : Task) (descriptor : Nat) : Option Handle := t.descriptors.lookup descriptor

def handles (t : Task) : List Handle := t.descriptors.map Prod.snd

def holds (t : Task) (h : Handle) : Bool := t.descriptors.any fun d => d.2 = h

/-- Let a descriptor lead nowhere. -/
def detach (t : Task) (descriptor : Nat) : Task :=
  { t with descriptors := t.descriptors.filter fun d => d.1 ≠ descriptor }

/-- Let a descriptor lead somewhere. -/
def attach (t : Task) (descriptor : Nat) (h : Handle) : Task :=
  { t with descriptors := (descriptor, h) :: (t.detach descriptor).descriptors }

def isRunning (t : Task) : Bool := t.ended.isNone

/-- What becomes of a signal. -/
def dispose (t : Task) (signal : Nat) (d : Signal.Disposition) : Task :=
  let ignored := t.ignored.filter (· ≠ signal)
  let caught := t.caught.filter (· ≠ signal)
  match d with
  | .default => { t with ignored, caught }
  | .ignored => { t with ignored := signal :: ignored, caught }
  | .caught => { t with ignored, caught := signal :: caught }

end Task

namespace Kernel

/-- The number of the process that takes over the children of those that have ended. -/
def adopter : Nat := 1

/-- The number that stands for the shell as a parent. -/
def shellPid : Nat := 0

/-- Whether someone holds a handle. -/
def isHeld (k : Kernel) (h : Handle) : Bool :=
  k.held.contains h || k.tasks.any fun t => t.holds h

/-- Forget what a handle led to, if nobody holds it any more. The handles `apart` are held as
well. -/
def release (k : Kernel) (apart : List Handle) (h : Handle) : Kernel :=
  let isHeld (h : Handle) : Bool := apart.contains h || k.isHeld h
  match h with
  | .file n => if isHeld h then k else { k with opened := k.opened.filter fun f => f.1 ≠ n }
  | .reader n | .writer n =>
    if isHeld (.reader n) || isHeld (.writer n) then k
    else { k with pipes := k.pipes.filter fun p => p.1 ≠ n }
  | _ => k

def releaseAll (k : Kernel) (apart : List Handle) (hs : List Handle) : Kernel :=
  hs.foldl (fun k h => k.release apart h) k

/-- The time as files show it. -/
def fileTime (k : Kernel) : Nat := k.clock / 4000

/-- What is in a pipe. -/
def pipeContent (k : Kernel) (n : Nat) : ByteArray := (k.pipes.lookup n).getD ByteArray.empty

def setPipe (k : Kernel) (n : Nat) (content : ByteArray) : Kernel :=
  { k with pipes := (n, content) :: k.pipes.filter fun p => p.1 ≠ n }

def setOpened (k : Kernel) (n : Nat) (f : FileSystem.OpenFile) : Kernel :=
  { k with opened := k.opened.map fun o => if o.1 = n then (n, f) else o }

/-- Add an open file. -/
def addOpened (k : Kernel) (f : FileSystem.OpenFile) : Handle × Kernel :=
  (.file k.nextNumber,
   { k with opened := (k.nextNumber, f) :: k.opened, nextNumber := k.nextNumber + 1 })

/-- Make a pipe. -/
def addPipe (k : Kernel) : Nat × Kernel :=
  (k.nextNumber,
   { k with pipes := (k.nextNumber, ByteArray.empty) :: k.pipes, nextNumber := k.nextNumber + 1 })

/-- Write to an open file. -/
def writeFile (k : Kernel) (n : Nat) (bytes : ByteArray) : Kernel :=
  match k.opened.lookup n with
  | none => k
  | some f =>
    let (f, files) := k.files.writeTo f bytes
    { k.setOpened n f with files := files.touch f.place k.fileTime }

/-- Open what a text leads to. -/
def openText (k : Kernel) (base : Place) (text : String) (access : Access) :
    Except Errno (Handle × Kernel) :=
  let opened (place : Place) : FileSystem.OpenFile :=
    { place, append := access.append, readable := access.read, writable := access.write }
  let taken := match k.files.locateText .look base text with
    | .ok (_, some (.link _)) => true
    | _ => false
  match k.files.locateText (if access.create then .create else .follow) base text with
  | .error e => .error e
  | .ok (_, some .dir) => if access.write then .error .isDirectory else .ok (.directory, k)
  | .ok (_, some .null) | .ok (_, some .pipe) => .ok (.null, k)
  | .ok (_, some (.link _)) => .error .tooManyLinks
  | .ok (place, none) =>
    if !access.create then .error .notFound
    else if access.fresh && taken then .error .alreadyExists
    else
      let files := (k.files.set place (.file ByteArray.empty false)).touch place k.fileTime
      .ok ({ k with files }.addOpened (opened place))
  | .ok (place, some (.file _ executable)) =>
    if access.fresh then .error .alreadyExists
    else if access.truncate then
      let files := (k.files.set place (.file ByteArray.empty executable)).touch place k.fileTime
      .ok ({ k with files }.addOpened (opened place))
    else .ok (k.addOpened (opened place))

/-- A task without children any more: those that run are taken over, those that have ended are
forgotten. -/
def orphan (k : Kernel) (pid : Nat) : Kernel :=
  let tasks := k.tasks.filter fun t => t.parent ≠ pid || t.isRunning
  { k with tasks := tasks.map fun t => if t.parent = pid then { t with parent := adopter } else t }

/-- Whether someone will ask how the children of a process ended. -/
def isParent (k : Kernel) (pid : Nat) : Bool :=
  pid = shellPid || k.tasks.any fun t => t.pid = pid && t.isRunning

/-- A signal reaches a task: it is caught, it does nothing, or it ends the task. -/
inductive Effect where
  | remains (t : Task)
  | dies (t : Task) (signal : Nat)

def affect (t : Task) (signal : Nat) : Effect :=
  let t := if signal = Signal.resume then { t with stopped := false } else t
  if signal = Signal.kill then .dies t signal
  else if signal = Signal.stop then .remains { t with stopped := true }
  else if t.ignored.contains signal then .remains t
  else if t.caught.contains signal then
    .remains (if t.pending.contains signal then t else { t with pending := t.pending ++ [signal] })
  else if Signal.isStop signal then .remains { t with stopped := true }
  else if Signal.isIdle signal then .remains t
  else .dies t signal

/-- Tell a task that one of its children has ended. -/
def notify (t : Task) : Task :=
  match affect t Signal.child with
  | .remains t | .dies t _ => t

/-- A task, which stands apart from the others, ends. -/
def finish (k : Kernel) (t : Task) (e : Exit) : Kernel :=
  let k := k.orphan t.pid
  let k :=
    { k with tasks := k.tasks.map fun (p : Task) => if p.pid = t.parent then notify p else p }
  let k := if k.isParent t.parent then
      { k with tasks := k.tasks ++
        [{ t with ended := some e, descriptors := [], process := .exhausted }] }
    else k
  k.releaseAll [] t.handles

/-- Take a task that runs out of the others. -/
def take (k : Kernel) (pid : Nat) : Option (Task × Kernel) :=
  (k.tasks.find? fun t => t.pid = pid && t.isRunning).map fun t =>
    (t, { k with tasks := k.tasks.filter fun t => t.pid ≠ pid })

/-- Put a task back behind the others. -/
def putBack (k : Kernel) (t : Task) : Kernel := { k with tasks := k.tasks ++ [t] }

/-- A task after a signal; one that dies has nothing else to do any more. -/
def struck (t : Task) (signal : Nat) : Task :=
  match affect t signal with
  | .remains t => t
  | .dies t signal => { t with process := .exit (.killed signal), wakeAt := none, stopped := false }

/-- Send a signal to a task. -/
def send (k : Kernel) (pid signal : Nat) : Kernel :=
  { k with tasks := k.tasks.map fun (t : Task) =>
      if t.pid = pid && t.isRunning then struck t signal else t }

/-- Whether there is a process of that number. -/
def hasTask (k : Kernel) (pid : Nat) : Bool := k.tasks.any fun t => t.pid = pid

/-- How a task ended. -/
def exitOf (k : Kernel) (pid : Nat) : Option Exit :=
  (k.tasks.find? fun t => t.pid = pid).bind Task.ended

/-- Forget a task that has ended. -/
def reap (k : Kernel) (pid : Nat) : Kernel :=
  { k with tasks := k.tasks.filter fun t => t.pid ≠ pid }

/-- Start a process on behalf of the shell. -/
def spawn (k : Kernel) (process : Process) (descriptors : List (Nat × Handle)) : Nat × Kernel :=
  (k.nextPid,
   { k with
     tasks := k.tasks ++ [{ pid := k.nextPid, parent := shellPid, process, descriptors }]
     nextPid := k.nextPid + 1 })

/-- The shell takes hold of a handle. -/
def hold (k : Kernel) (h : Handle) : Kernel := { k with held := h :: k.held }

/-- The shell lets go of a handle. -/
def letGo (k : Kernel) (h : Handle) : Kernel :=
  { k with held := k.held.erase h }.release [] h

end Kernel

end CommandShell
