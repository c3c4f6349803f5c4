import CommandShell.Environment
import CommandShell.Process

/-!
# Machines

A machine loads programs. A program is a process that is given its arguments, its variables and its
directory.
-/

namespace CommandShell

/-- What a program is started with. -/
structure Launch where
  arguments : List String
  environment : Environment := {}
  directory : Place := []

abbrev Program := Launch → Process

/-- What the system does with files that are to be executed: it refuses them or makes programs of
them. Files are named by texts, which are followed from the directory of the program to be. -/
structure Machine where
  load : FileSystem → Place → String → Except Errno Program

end CommandShell
