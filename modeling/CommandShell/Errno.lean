/-!
# System errors

The ways in which the system refuses an operation on a file or a program, each with its number and
its wording.
-/

namespace CommandShell

inductive Errno where
  | notFound
  | noProcess
  | interrupted
  | argumentsTooLong
  | badFormat
  | badDescriptor
  | noChild
  | permissionDenied
  | alreadyExists
  | notDirectory
  | isDirectory
  | invalidArgument
  | fileTooLarge
  | noSpace
  | brokenPipe
  | nameTooLong
  | tooManyLinks
  deriving DecidableEq, Repr

namespace Errno

def number : Errno → Nat
  | .notFound => 2
  | .noProcess => 3
  | .interrupted => 4
  | .argumentsTooLong => 7
  | .badFormat => 8
  | .badDescriptor => 9
  | .noChild => 10
  | .permissionDenied => 13
  | .alreadyExists => 17
  | .notDirectory => 20
  | .isDirectory => 21
  | .invalidArgument => 22
  | .fileTooLarge => 27
  | .noSpace => 28
  | .brokenPipe => 32
  | .nameTooLong => 36
  | .tooManyLinks => 40

def text : Errno → String
  | .notFound => "No such file or directory"
  | .noProcess => "No such process"
  | .interrupted => "Interrupted system call"
  | .argumentsTooLong => "Argument list too long"
  | .badFormat => "Exec format error"
  | .badDescriptor => "Bad file descriptor"
  | .noChild => "No child processes"
  | .permissionDenied => "Permission denied"
  | .alreadyExists => "File exists"
  | .notDirectory => "Not a directory"
  | .isDirectory => "Is a directory"
  | .invalidArgument => "Invalid argument"
  | .fileTooLarge => "File too large"
  | .noSpace => "No space left on device"
  | .brokenPipe => "Broken pipe"
  | .nameTooLong => "File name too long"
  | .tooManyLinks => "Too many levels of symbolic links"

/-- The error together with what it is about. -/
def about (e : Errno) (subject : String) : String :=
  "[Errno " ++ toString e.number ++ "] " ++ e.text ++ ": " ++ subject

end Errno

end CommandShell
