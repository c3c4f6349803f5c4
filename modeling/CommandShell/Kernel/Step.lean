import CommandShell.Kernel

/-!
# Requests

What the system does when it is asked for something. A task that asks stands apart from the other
tasks: it goes on with an answer, has to wait, or ends.
-/

namespace CommandShell.Kernel

/-- How many bytes a pipe holds. -/
def pipeSize : Nat := 65536

/-- Bytes up to this number are written to a pipe together or not at all. -/
def pipeAtom : Nat := 4096

/-- How long it takes to start a process, in microseconds. -/
def forkTime : Nat := 300

/-- How long it takes to load a program, in microseconds. -/
def loadTime : Nat := 500

/-- What came of a request. -/
inductive Turn where
  | goesOn (k : Kernel) (t : Task)
  | waits (k : Kernel) (t : Task)
  | ends (k : Kernel) (t : Task) (e : Exit)

/-- The task goes on. -/
def Turn.proceed (k : Kernel) (t : Task) (process : Process) : Turn := .goesOn k { t with process }

/-- Whether someone holds a handle, the task included. -/
def isHeldWith (k : Kernel) (t : Task) (h : Handle) : Bool := t.holds h || k.isHeld h

/-- How much of a content is read: up to the end of a line if that is asked for. -/
def readSize (content : ByteArray) (limit : Nat) (line : Bool) : Nat :=
  let limit := min limit content.size
  if line then
    match content.findIdx? (· == 10) with
    | some i => min limit (i + 1)
    | none => limit
  else limit

/-- What reading from a handle gives. -/
inductive Reading where
  | bytes (b : ByteArray) (k : Kernel)
  | error (e : Errno)
  /-- There is nothing yet. -/
  | nothing

def readHandle (k : Kernel) (t : Task) (h : Handle) (limit : Nat) (line : Bool) : Reading :=
  match h with
  | .null => .bytes ByteArray.empty k
  | .directory => .error .isDirectory
  | .file n =>
    match k.opened.lookup n with
    | none => .error .badDescriptor
    | some f =>
      if !f.readable then .error .badDescriptor
      else
        let (bytes, _) := k.files.readFrom f limit
        let size := readSize bytes limit line
        .bytes (bytes.extract 0 size) (k.setOpened n { f with offset := f.offset + size })
  | .reader n =>
    let content := k.pipeContent n
    if content.size = 0 then
      if k.isHeldWith t (.writer n) then .nothing else .bytes ByteArray.empty k
    else
      let size := readSize content limit line
      .bytes (content.extract 0 size) (k.setPipe n (content.extract size content.size))
  | _ => .error .badDescriptor

/-- A task writes to a pipe. -/
def writePipe (k : Kernel) (t : Task) (n : Nat) (descriptor : Nat) (bytes : ByteArray)
    (next : Except Errno Unit → Process) : Turn :=
  if bytes.size = 0 then .proceed k t (next (.ok ()))
  else if !k.isHeldWith t (.reader n) then
    match affect t Signal.pipe with
    | .remains t => .proceed k t (next (.error .brokenPipe))
    | .dies t signal => .ends k t (.killed signal)
  else
    let content := k.pipeContent n
    let room := pipeSize - content.size
    if room = 0 || (bytes.size ≤ pipeAtom && room < bytes.size) then .waits k t
    else
      let k := k.setPipe n (content ++ bytes.extract 0 room)
      if bytes.size ≤ room then .proceed k t (next (.ok ()))
      else .proceed k t (.write descriptor (bytes.extract room bytes.size) next)

/-- A task writes. -/
def writeHandle (k : Kernel) (t : Task) (h : Handle) (descriptor : Nat) (bytes : ByteArray)
    (next : Except Errno Unit → Process) : Turn :=
  match h with
  | .null => .proceed k t (next (.ok ()))
  | .tap tap =>
    let spilled :=
      if bytes.size = 0 then k.spilled else { tap, time := k.clock, bytes } :: k.spilled
    .proceed { k with spilled } t (next (.ok ()))
  | .file n =>
    if (k.opened.lookup n).any fun f => f.writable then
      .proceed (k.writeFile n bytes) t (next (.ok ()))
    else .proceed k t (next (.error .badDescriptor))
  | .writer n => k.writePipe t n descriptor bytes next
  | _ => .proceed k t (next (.error .badDescriptor))

/-- Let a descriptor of a task lead somewhere else. -/
def redirect (k : Kernel) (t : Task) (descriptor : Nat) (h : Option Handle) : Kernel × Task :=
  let before := t.handle? descriptor
  let t := match h with
    | some h => t.attach descriptor h
    | none => t.detach descriptor
  (match before with
    | some b => k.release t.handles b
    | none => k, t)

/-- Where a process finds its own descriptors. -/
def descriptorFolder : Place := ["proc", "self", "fd"]

/-- The descriptor that a place stands for. -/
def descriptorAt? : Place → Option Nat
  | ["proc", "self", "fd", name] => name.toNat?.filter fun n => toString n = name
  | _ => none

/-- What stands for a descriptor among the files: a link to what the descriptor leads to. Something
without a place of its own stands beside the link. -/
def descriptorNodes (k : Kernel) (descriptor : Nat) (h : Handle) : List (Place × Node) :=
  let beside (name : String) (node : Node) : List (Place × Node) :=
    [(descriptorFolder ++ [toString descriptor], .link name), (descriptorFolder ++ [name], node)]
  let leadTo (place : Place) : List (Place × Node) :=
    [(descriptorFolder ++ [toString descriptor], .link ("/" ++ String.intercalate "/" place))]
  match h with
  | .null => leadTo ["dev", "null"]
  | .directory => leadTo []
  | .file n => leadTo (((k.opened.lookup n).map FileSystem.OpenFile.place).getD ["dev", "null"])
  | .reader n | .writer n | .tap (.stream n) => beside ("pipe:[" ++ toString n ++ "]") .pipe
  | .tap (.screen .out) => beside "screen" (.file ByteArray.empty false)
  | .tap (.screen .err) => beside "errors" (.file ByteArray.empty false)

/-- The files as a task sees them, with its own descriptors among them. -/
def filesFor (k : Kernel) (t : Task) : FileSystem :=
  let isOwn : Place × Node → Bool
    | (["proc", "self", "fd", _], _) => true
    | _ => false
  let own := t.descriptors.flatMap fun (d, h) => k.descriptorNodes d h
  { k.files with nodes := own ++ k.files.nodes.filter fun n => !isOwn n }

/-- Open what a descriptor of a task leads to once more. -/
def reopen (k : Kernel) (t : Task) (descriptor : Nat) (access : Access) :
    Except Errno (Handle × Kernel) :=
  match t.handle? descriptor with
  | none => .error .notFound
  | some (.file n) =>
    match k.opened.lookup n with
    | none => .error .notFound
    | some f => k.openText [] ("/" ++ String.intercalate "/" f.place) access
  | some .directory => if access.write then .error .isDirectory else .ok (.directory, k)
  | some (.reader n) | some (.writer n) => .ok (if access.write then .writer n else .reader n, k)
  | some h => .ok (h, k)

/-- Open what a text leads to for a task. -/
def openFor (k : Kernel) (t : Task) (base : Place) (text : String) (access : Access) :
    Except Errno (Handle × Kernel) :=
  match (k.files.locateText .follow base text).toOption.bind fun found => descriptorAt? found.1 with
  | some descriptor => k.reopen t descriptor access
  | none => k.openText base text access

/-- What the system does for a task. -/
def step (k : Kernel) (t : Task) : Turn :=
  match t.process with
  | .exit e => .ends k t e
  | .exhausted => .waits k t
  | .look next => .proceed k t (next (k.filesFor t))
  | .read d limit line next =>
    match t.handle? d with
    | none => .proceed k t (next (.error .badDescriptor))
    | some h =>
      match k.readHandle t h limit line with
      | .bytes b k => .proceed k t (next (.ok b))
      | .error e => .proceed k t (next (.error e))
      | .nothing =>
        if t.pending.isEmpty then .waits k t else .proceed k t (next (.error .interrupted))
  | .drain d taken next =>
    match t.handle? d with
    | none => .proceed k t (next taken)
    | some h =>
      match k.readHandle t h pipeSize false with
      | .bytes b k =>
        if b.size = 0 then .proceed k t (next taken) else .proceed k t (.drain d (taken ++ b) next)
      | .error _ => .proceed k t (next taken)
      | .nothing => .waits k t
  | .write d bytes next =>
    match t.handle? d with
    | none => .proceed k t (next (.error .badDescriptor))
    | some h => k.writeHandle t h d bytes next
  | .openFile base path access d next =>
    match k.openFor t base path access with
    | .error e => .proceed k t (next (.error e))
    | .ok (h, k) =>
      let (k, t) := k.redirect t d (some h)
      .proceed k t (next (.ok ()))
  | .duplicate source d next =>
    match t.handle? source with
    | none => .proceed k t (next (.error .badDescriptor))
    | some h =>
      let (k, t) := k.redirect t d (some h)
      .proceed k t (next (.ok ()))
  | .close d next =>
    let (k, t) := k.redirect t d none
    .proceed k t (next ())
  | .pipe reader writer next =>
    let (n, k) := k.addPipe
    let (k, t) := k.redirect t reader (some (.reader n))
    let (k, t) := k.redirect t writer (some (.writer n))
    .proceed k t (next ())
  | .inspect d next =>
    .proceed k t (next ((t.handle? d).map fun
      | .file n => ((k.opened.lookup n).map Connection.file).getD .other
      | _ => .other))
  | .fork child next =>
    let pid := k.nextPid
    let task : Task :=
      { t with pid, parent := t.pid, process := child, pending := [], wakeAt := none }
    .proceed ({ k with nextPid := pid + 1, clock := k.clock + forkTime }.putBack task) t (next pid)
  | .wait patience next =>
    let children := k.tasks.filter fun c => c.parent = t.pid
    match children.findSome? fun c => c.ended.map fun e => (c.pid, e) with
    | some (pid, e) => .proceed (k.reap pid) t (next (.ok (pid, e)))
    | none =>
      if patience = .none || children.isEmpty then .proceed k t (next (.error .noChild))
      else if patience = .untilSignal && t.pending.any (· ≠ Signal.child) then
        .proceed k t (next (.error .interrupted))
      else .waits k t
  | .sleep duration next =>
    match t.wakeAt with
    | none => .waits k { t with wakeAt := some (k.clock + duration) }
    | some w => if w ≤ k.clock then .proceed k { t with wakeAt := none } (next ()) else .waits k t
  | .kill pid signal next =>
    if pid = t.pid then
      match affect t signal with
      | .remains t => .proceed k t (next (.ok ()))
      | .dies t signal => .ends k t (.killed signal)
    else if k.hasTask pid then .proceed (k.send pid signal) t (next (.ok ()))
    else .proceed k t (next (.error .noProcess))
  | .dispose signal d next => .proceed k (t.dispose signal d) (next ())
  | .caught next => .proceed k { t with pending := [] } (next t.pending)
  | .become next =>
    let (kept, dropped) := t.descriptors.partition fun d => d.1 < Process.firstPrivate
    let t := { t with descriptors := kept, caught := [], pending := [] }
    let k := { k with clock := k.clock + loadTime }
    .proceed (k.releaseAll t.handles (dropped.map Prod.snd)) t (next ())
  | .self next => .proceed k t (next t.pid t.parent t.ignored)

end CommandShell.Kernel
