import CommandShell.Script.State

/-!
# Actions of scripts

An action works on the state of a script and may ask the system for something on its way. It is
given what is to be done after it, once for the normal flow of commands and once for when it is
left.
-/

namespace CommandShell.Script

/-- An action with a result. -/
def Act (α : Type) : Type :=
  State → (α → State → Process) → (Flow → State → Process) → Process

namespace Act

@[inline] protected def pure {α : Type} (a : α) : Act α := fun s next _ => next a s

@[inline] protected def bind {α β : Type} (act : Act α) (f : α → Act β) : Act β :=
  fun s next leave => act s (fun a s => f a s next leave) leave

instance : Monad Act where
  pure := Act.pure
  bind := Act.bind

@[inline] def get : Act State := fun s next _ => next s s

@[inline] def set (s : State) : Act Unit := fun _ next _ => next () s

@[inline] def modify (f : State → State) : Act Unit := fun s next _ => next () (f s)

/-- Leave the normal flow of commands. -/
@[inline] def leave {α : Type} (flow : Flow) : Act α := fun s _ leave => leave flow s

/-- Do something, and something else if it leaves the normal flow. -/
@[inline] def orElse {α : Type} (act : Act α) (f : Flow → Act α) : Act α :=
  fun s next leave => act s next fun flow s => f flow s next leave

/-- Do something; the result says how it left the normal flow, if it did. -/
@[inline] def attempt {α : Type} (act : Act α) : Act (Except Flow α) :=
  fun s next _ => act s (fun a s => next (.ok a) s) fun flow s => next (.error flow) s

/-- An action that never comes back. -/
@[inline] def never {α : Type} (process : State → Process) : Act α := fun s _ _ => process s

/-- The process is cut off. -/
def exhaust {α : Type} : Act α := fun _ _ _ => .exhausted

/-- Look at the files. -/
def look : Act FileSystem := fun s next _ => .look fun files => next files s

def read (descriptor limit : Nat) (line : Bool) : Act (Except Errno ByteArray) :=
  fun s next _ => .read descriptor limit line fun r => next r s

def write (descriptor : Nat) (text : String) : Act (Except Errno Unit) :=
  fun s next _ =>
    if text.isEmpty then next (.ok ()) s else .write descriptor (bytesOf text) fun r => next r s

/-- Open a file that is named by a text. -/
def openFile (path : String) (access : Access) (descriptor : Nat) : Act (Except Errno Unit) :=
  fun s next _ => .openFile s.directory (textOf path) access descriptor fun r => next r s

def duplicate (source descriptor : Nat) : Act (Except Errno Unit) :=
  fun s next _ => .duplicate source descriptor fun r => next r s

def close (descriptor : Nat) : Act Unit := fun s next _ => .close descriptor fun _ => next () s

def pipe (reader writer : Nat) : Act Unit := fun s next _ => .pipe reader writer fun _ => next () s

def inspect (descriptor : Nat) : Act (Option Connection) :=
  fun s next _ => .inspect descriptor fun c => next c s

/-- How a process ends with the status of the script. -/
def exitNow (s : State) : Process := .exit (.exited (s.status % 256))

/-- Start a process that does something and ends with the status of the script. -/
def fork (child : Act Unit) : Act Nat := fun s next _ =>
  .fork (child s (fun _ s => exitNow s) fun _ s => exitNow s) fun pid => next pid s

/-- Ask for a child that has ended. -/
def wait (patience : Patience) : Act (Except Errno (Nat × Exit)) :=
  fun s next _ => .wait patience fun r => next r s

def sleep (duration : Nat) : Act Unit := fun s next _ => .sleep duration fun _ => next () s

def kill (pid signal : Nat) : Act (Except Errno Unit) :=
  fun s next _ => .kill pid signal fun r => next r s

def dispose (signal : Nat) (d : Signal.Disposition) : Act Unit :=
  fun s next _ => .dispose signal d fun _ => next () s

/-- The signals that have come, in order. -/
def caught : Act (List Nat) :=
  fun s next _ => .caught fun signals => next (signals.mergeSort (· ≤ ·)) s

/-- Take a descriptor that the script keeps to itself. -/
def reserve : Act Nat := do
  let d := (← get).freeDescriptor
  modify fun s => { s with reserved := d :: s.reserved }
  return d

/-- Give back a descriptor that the script has kept to itself. -/
def giveBack (descriptor : Nat) : Act Unit := do
  close descriptor
  modify fun s => { s with reserved := s.reserved.erase descriptor }

def setStatus (status : Nat) : Act Unit := modify fun s => { s with status }

/-- Add to what the running utility writes. -/
def put (text : String) : Act Unit := modify fun s => { s with written := text :: s.written }

/-- Write an error text. -/
def say (text : String) : Act Unit := do
  let _ ← write 2 text

/-- Report something that is wrong. -/
def warn (message : String) : Act Unit := do
  say ((← get).errorStart ++ message ++ "\n")

/-- Report an error, which leaves the normal flow. -/
def fail {α : Type} (message : String) : Act α := do
  warn message
  setStatus 2
  leave .failed

/-- Report an error in the text of the script. -/
def failSyntax {α : Type} (e : SyntaxError) : Act α := do
  modify fun s => { s with line := e.line }
  fail ("Syntax error: " ++ e.message)

/-- Leave with a status after a report. -/
def quit {α : Type} (status : Nat) (message : String) : Act α := do
  warn message
  setStatus status
  leave .ended

end Act

end CommandShell.Script
