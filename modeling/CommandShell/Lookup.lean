import CommandShell.World

/-!
# Command lookup

A builtin of that name always wins. A name with a slash is a path and is taken as it is; any other
name is searched for in the directories of the search path, in order, and the first file that may be
executed is taken.
-/

namespace CommandShell

/-- What a command name stands for. -/
inductive Resolution where
  | builtin
  | external (path : Path)
  | unresolved
  deriving DecidableEq, Repr

namespace Resolution

/-- The program that the name stands for. -/
def path? : Resolution → Option Path
  | .external p => some p
  | _ => none

def isFound (r : Resolution) : Bool := r != .unresolved

end Resolution

namespace Lookup

/-- The first executable file of that name in the directories. -/
def inDirectories (w : World) (name : String) (directories : List String) : Option Path :=
  (directories.map fun d => (Path.ofText d).join (Path.ofText name)).find? w.isExecutable

/-- The names of the executable files in a directory; none if it cannot be read. -/
def executablesIn (w : World) (directory : String) : Except Fault (List String) :=
  match w.namesIn directory with
  | .error (.system _ _) => .ok []
  | .error f => .error f
  | .ok names => .ok (names.filter fun name =>
      w.isExecutable (Path.ofText (Path.inDirectory directory name)))

/-- A path, anchored at a directory if it is relative. -/
def anchored (cwd : Option Path) (p : Path) : Path :=
  match cwd with
  | some cwd => cwd.join p
  | none => p

/-- What a command name stands for. -/
def resolve (w : World) (builtins directories : List String) (cwd : Option Path) (name : String) :
    Resolution :=
  if builtins.contains name then .builtin
  else if name.toList.contains '/' then
    let p := anchored cwd (Path.ofText name)
    if w.isExecutable p then .external p else .unresolved
  else
    match inDirectories w name directories with
    | some p => .external p
    | none => .unresolved

end Lookup

end CommandShell
