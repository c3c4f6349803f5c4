import CommandShell.Pump
import CommandShell.Session
import CommandShell.Sink.Held

/-!
# Outlets

The places that the stages of a pipeline write to: the two channels of the screen, the files that
the last stage is redirected to, and, for a builtin before the last stage, the pipe to the next one.
-/

namespace CommandShell.Pipeline

inductive Outlet where
  | screen (channel : Channel)
  /-- The file that a channel of the last stage is redirected to. -/
  | file (channel : Channel)
  /-- The pipe to the next stage. -/
  | next
  deriving DecidableEq, Repr

/-- The sinks of a pipeline. -/
structure Outlets where
  screenOut : Sink Console
  screenErr : Sink Console
  fileOut : Option HeldSink := none
  fileErr : Option HeldSink := none
  next : Option HeldSink := none

/-- An operation on any sink. -/
abbrev SinkAction := {σ W : Type} → [TextStream σ W] → Sink σ → W → Sink σ × W

namespace Outlets

/-- The sinks of the screen of a session. -/
def ofSession (s : Session) : Outlets where
  screenOut := { stream := { channel := .out, direct := s.direct } }
  screenErr := { stream := { channel := .err, direct := s.direct } }

def screenSink (o : Outlets) : Channel → Sink Console
  | .out => o.screenOut
  | .err => o.screenErr

def setScreenSink (o : Outlets) : Channel → Sink Console → Outlets
  | .out, k => { o with screenOut := k }
  | .err, k => { o with screenErr := k }

/-- The sink of an outlet other than the screen. -/
def heldSink (o : Outlets) : Outlet → Option HeldSink
  | .file .out => o.fileOut
  | .file .err => o.fileErr
  | .next => o.next
  | .screen _ => none

def setHeldSink (o : Outlets) : Outlet → HeldSink → Outlets
  | .file .out, k => { o with fileOut := some k }
  | .file .err, k => { o with fileErr := some k }
  | .next, k => { o with next := some k }
  | .screen _, _ => o

/-- Act on the sink of an outlet. -/
def act (f : SinkAction) (outlet : Outlet) (o : Outlets) (s : Session) : Outlets × Session :=
  match outlet with
  | .screen channel =>
    let (k, screen) := f (o.screenSink channel) s.screen
    (o.setScreenSink channel k, { s with screen })
  | outlet =>
    match o.heldSink outlet with
    | none => (o, s)
    | some k =>
      let (k, system) := f k s.world.toKernel
      (o.setHeldSink outlet k, (s.onKernel fun _ => system).absorb)

def write (text : String) : Outlet → Outlets → Session → Outlets × Session :=
  act fun k w => k.write text w

def writeBytes (bytes : Bytes) : Outlet → Outlets → Session → Outlets × Session :=
  act fun k w => k.writeBytes bytes w

def flush : Outlet → Outlets → Session → Outlets × Session := act fun k w => k.flush w

def close : Outlet → Outlets → Session → Outlets × Session := act fun k w => k.close w

/-- What a descriptor of a program that writes to an outlet by itself leads to. -/
def handle? (o : Outlets) (outlet : Outlet) : Option Handle :=
  match outlet with
  | .screen channel =>
    if (o.screenSink channel).hasDescriptor then some (.tap (.screen channel)) else none
  | outlet =>
    (o.heldSink outlet).bind fun k => if k.hasDescriptor then some k.stream.device else none

/-- Whether what is written to an outlet is encoded there. -/
def encodes (o : Outlets) : Outlet → Bool
  | .screen channel => (o.screenSink channel).hasDescriptor
  | outlet => (o.heldSink outlet).any fun k => !k.isDead

end Outlets

/-- Where the last stage writes, and the sinks behind it. -/
structure Wiring where
  out : Outlet := .screen .out
  err : Outlet := .screen .err
  outlets : Outlets

/-- Open a file that a channel is redirected to. -/
def openTarget (s : Session) (channel : Channel) (target : FileTarget) (o : Outlets) :
    Except Fault (Outlets × Session) :=
  (s.world.openFile (s.resolvePath target.path) target.mode).map fun (h, world) =>
    (o.setHeldSink (.file channel) (Sink.ofHandle h), { s with world })

/-- Build the sink for the errors of the last stage, when that for its output is there. -/
def openErrors (s : Session) (err : Option ErrorTarget) (out : Outlet) (o : Outlets) :
    Except Fault Wiring × Session :=
  match err with
  | none => (.ok { out, outlets := o }, s)
  | some .merge => (.ok { out, err := out, outlets := o }, s)
  | some (.file target) =>
    match openTarget s .err target o with
    | .error f => (.error f, (Outlets.close (.file .out) o s).2)
    | .ok (o, s) => (.ok { out, err := .file .err, outlets := o }, s)

/-- Build the sinks of the last stage. A file that was opened before a failure is closed again; what
opening did to it stays done. -/
def openRedirections (s : Session) (r : Redirections) : Except Fault Wiring × Session :=
  match r.out with
  | none => openErrors s r.err (.screen .out) (Outlets.ofSession s)
  | some target =>
    match openTarget s .out target (Outlets.ofSession s) with
    | .error f => (.error f, s)
    | .ok (o, s) => openErrors s r.err (.file .out) o

end CommandShell.Pipeline
