import CommandShell.Fault
import CommandShell.Kernel

/-!
# The world of a session

The system with its files and processes, and what the surrounding process has: a working directory,
from which relative paths are followed, and a home directory. The operations here add to those of
the file system that a name with a null character is refused, and so is what the process may not do.
-/

namespace CommandShell

structure World extends Kernel where
  /-- The working directory of the process. -/
  directory : Place := []
  /-- The home directory of the process, as its environment has it. -/
  home : Option String := none
  /-- What the system refuses the process at each place. -/
  restraint : Place → FileSystem.Restraint := fun _ => {}

namespace World

/-- Refuse a path with a null character, and place an error of the system. -/
def guarded {α : Type} (p : Path) (result : Except Errno α) : Except Fault α :=
  if Path.hasNull p.text then .error .embeddedNull
  else
    match result with
    | .ok a => .ok a
    | .error e => .error (.system e p)

/-- A question about what a path leads to. -/
def test (w : World) (p : Path) (q : Node → Bool) : Except Fault Bool :=
  match w.files.test w.directory p q with
  | .ok b => .ok b
  | .error e => .error (.system e p)

def exists? (w : World) (p : Path) : Except Fault Bool := w.test p fun _ => true

def isDir (w : World) (p : Path) : Except Fault Bool := w.test p FileSystem.isDirNode

/-- Whether a path leads to a file that may be executed. -/
def isExecutable (w : World) (p : Path) : Bool :=
  match w.test p FileSystem.isExecutableNode with
  | .ok b => b
  | .error _ => false

/-- The path without links. One that leads to links in a circle has none. -/
def resolve (w : World) (p : Path) : Except Fault Path :=
  let real := Path.ofParts (w.files.realPlace w.directory p)
  match w.files.stat w.directory real with
  | .error .tooManyLinks => .error (.linkLoop real)
  | _ => .ok real

/-- The error with which the system refuses the process to read what a path leads to. -/
def unreadable? (w : World) (p : Path) : Option Errno :=
  match w.files.stat w.directory p with
  | .ok (place, _) => (w.restraint place).unreadable
  | .error _ => none

def read (w : World) (p : Path) : Except Fault Bytes :=
  guarded p (match w.unreadable? p with
    | some e => .error e
    | none => w.files.read w.directory p)

/-- How a file is opened for writing. -/
def accessOf : OpenMode → Access
  | .truncate => .output
  | .append => .addition

/-- The error with which the system refuses the process to write where a path leads. -/
def unwritable? (w : World) (p : Path) : Option Errno :=
  match w.files.locate .create w.directory p with
  | .ok (place, _) => (w.restraint place).unwritable
  | .error _ => none

/-- Open a file for writing; the shell holds it. -/
def openFile (w : World) (p : Path) (mode : OpenMode) : Except Fault (Handle × World) :=
  (guarded p (match w.openText w.directory p.text (accessOf mode), w.unwritable? p with
    | .ok _, some e => .error e
    | opened, _ => opened)).map fun (h, k) => (h, { w with toKernel := k.hold h })

/-- Write a whole text to a file. When that fails, the world is left as the attempt has made it. -/
def writeText (w : World) (p : Path) (mode : OpenMode) (text : String) :
    World × Except Fault Unit :=
  if Path.hasNull p.text then (w, .error .embeddedNull)
  else
    let (files, result) := w.files.writeFile w.restraint w.directory p mode (Utf8.encode text)
    ({ w with files }, match result with
      | .ok () => .ok ()
      | .error e => .error (.system e p))

/-- The names in a directory that is named by a text. The text is taken as it is. -/
def namesIn (w : World) (directory : String) : Except Fault (List String) :=
  if Path.hasNull directory then .error .embeddedNull
  else
    match w.files.statText w.directory directory with
    | .error e => .error (.system e (Path.ofText directory))
    | .ok (place, .dir) => .ok (w.files.names place)
    | .ok _ => .error (.system .notDirectory (Path.ofText directory))

end World

end CommandShell
