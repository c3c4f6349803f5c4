import CommandShell.Session
import CommandShell.Text.Quoted

/-!
# Starting programs

How the system is asked to start a program: the working directory is entered, and the file is loaded
from there. A file that is named without a directory is searched for along the search path.
-/

namespace CommandShell.Pipeline

/-- The system refuses to start a program. -/
structure StartError where
  error : Errno
  /-- The file or the directory that it is about. -/
  subject : Path
  deriving DecidableEq, Repr

/-- The error with what it is about, as the log has it. -/
def StartError.message (e : StartError) : String :=
  e.error.about ("PosixPath(" ++ Text.quoted e.subject.text ++ ")")

/-- The longest text that the system hands to a program, in bytes. -/
def maxArgument : Nat := 131071

/-- A variable as the system hands it to a program. -/
def variableText (v : String × String) : String := v.1 ++ "=" ++ v.2

/-- What is wrong with the texts for a program, if something is. -/
def textFault? (arguments : List String) (environment : Environment) : Option Fault :=
  if environment.bindings.any fun v => v.1.toList.contains '=' then some .illegalVariable
  else if (arguments ++ environment.bindings.map variableText).any Path.hasNull then
    some .embeddedNull
  else none

/-- The files that are tried for an executable. -/
def candidates (environment : Environment) (executable : Path) : List String :=
  if executable.text.toList.contains '/' then [executable.text]
  else
    (Text.partsAt ':' ((environment.get? "PATH").getD "/bin:/usr/bin")).map fun d =>
      Path.inDirectory d executable.text

/-- Load the first candidate that can be loaded. If none can, the first error other than an absence
counts, else the last. -/
def loadFirst (load : String → Except Errno Program) :
    List String → Option Errno → Errno → Except Errno Program
  | [], telling, last => .error (telling.getD last)
  | file :: rest, telling, _ =>
    match load file with
    | .ok program => .ok program
    | .error e =>
      let absent := e = .notFound || e = .notDirectory
      loadFirst load rest (if absent then telling else telling.or (some e)) e

/-- The directory that a program starts in. -/
def startPlace (s : Session) : Except StartError Place :=
  match s.world.files.stat s.world.directory s.cwd with
  | .error e => .error ⟨e, s.cwd⟩
  | .ok (place, .dir) =>
    if place ∈ s.world.files.closed then .error ⟨.permissionDenied, s.cwd⟩ else .ok place
  | .ok _ => .error ⟨.notDirectory, s.cwd⟩

/-- Start a program in the working directory of a session. -/
def start (s : Session) (arguments : List String) (executable : Path) : Except StartError Process :=
  match startPlace s with
  | .error e => .error e
  | .ok directory =>
    let texts := arguments ++ s.environment.bindings.map variableText
    if texts.any fun t => maxArgument < (Utf8.encode t).length then
      .error ⟨.argumentsTooLong, executable⟩
    else
      match loadFirst (s.machine.load s.world.files directory) (candidates s.environment executable)
          none .notFound with
      | .error e => .error ⟨e, executable⟩
      | .ok program => .ok (program { arguments, environment := s.environment, directory })

end CommandShell.Pipeline
