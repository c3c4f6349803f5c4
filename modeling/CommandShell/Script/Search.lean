import CommandShell.Script.Utility.Bindings
import CommandShell.Script.Utility.Directory

/-!
# Looking for commands

A name stands for a function, a utility or a program. Programs are looked for along the search path,
and where they were found is remembered.
-/

namespace CommandShell.Script

/-- The utilities that are part of the language: their errors end the script, and assignments before
them last. -/
def specialNames : List String :=
  [".", ":", "break", "continue", "eval", "exec", "exit", "export", "local", "readonly",
    "return", "set",
   "shift", "times", "trap", "unset"]

/-- The other utilities. -/
def regularNames : List String :=
  ["[", "alias", "bg", "cd", "chdir", "command", "echo", "false", "fg", "getopts", "hash",
    "jobs", "kill",
   "printf", "pwd", "read", "test", "true", "type", "ulimit", "umask", "unalias", "wait"]

/-- The utilities whose arguments may be assignments. -/
def takesAssignments (name : String) : Bool :=
  ["export", "readonly", "local", "alias"].contains name

/-- What a name stands for. -/
inductive Meaning where
  | function (body : Command)
  | utility (special : Bool)
  /-- A program in one of the directories of the search path, or at the name itself. -/
  | program (index : Option Nat)
  | unknown (e : Errno)

def utility? (name : String) : Option Meaning :=
  if specialNames.contains name then some (.utility true)
  else if regularNames.contains name then some (.utility false)
  else none

/-- The first file of some that can be executed; the error if there is none. -/
def firstFile (files : FileSystem) (directory : Place) :
    Nat → Errno → List String → Except Errno Nat
  | _, e, [] => .error e
  | i, e, path :: rest =>
    match files.statText directory (textOf path) with
    | .ok (_, .file _ true) => .ok i
    | .ok _ => firstFile files directory (i + 1) .permissionDenied rest
    | .error .notFound | .error .notDirectory => firstFile files directory (i + 1) e rest
    | .error e => firstFile files directory (i + 1) e rest

/-- What a name stands for, with programs looked for along a path. -/
def meaningIn (path : String) (functions : Bool) (name : String) : Act Meaning := do
  let s ← Act.get
  if name.toList.contains '/' then return .program none
  match if functions then s.functions.lookup name else none with
  | some body => return .function body
  | none =>
    match utility? name with
    | some meaning => return meaning
    | none =>
      let isOwn := path = s.searchPath
      match if isOwn then s.found.lookup name else none with
      | some index => return .program (some index)
      | none =>
        let files ← Act.look
        match firstFile files s.directory 0 .notFound (pathCandidates path name) with
        | .error e => return .unknown e
        | .ok index =>
          if isOwn then Act.modify fun s => { s with found := s.found ++ [(name, index)] }
          return .program (some index)

/-- The error of a command that is not there or cannot be run. -/
def commandError (e : Errno) : String :=
  match e with
  | .notFound | .notDirectory => "not found"
  | e => e.text

/-- The search path when a standard one is asked for. -/
def standardPath : String := "/usr/local/sbin:/usr/local/bin:/usr/sbin:/usr/bin:/sbin:/bin"

namespace Utility

/-- Say what a name stands for. -/
def describe (path : Option String) (verbose : Bool) (name : String) : Act Nat := do
  let s ← Act.get
  let answer (long short : String) : Act Nat := do
    Act.put ((if verbose then name ++ long else short) ++ "\n")
    return 0
  if Token.reserved.any fun r => r.1 = name then answer " is a shell keyword" name
  else
    match s.aliases.find? fun a => a.1 = name with
    | some a => answer (" is an alias for " ++ a.2) ("alias " ++ a.1 ++ "=" ++ singleQuoted a.2)
    | none =>
      let isTracked := path.isNone && (s.found.lookup name).isSome
      let path := path.getD s.searchPath
      let files ← Act.look
      let missing := name.toList.contains '/' &&
        (files.statText s.directory (textOf name)).toOption.isNone
      let absent : Act Nat := do
        if verbose then Act.put (name ++ ": not found\n")
        return 127
      if missing then absent
      else
        match ← meaningIn path true name with
        | .unknown _ => absent
        | .function _ => answer " is a shell function" name
        | .utility special =>
          answer (if special then " is a special shell builtin" else " is a shell builtin") name
        | .program index =>
          let file := match index with
            | some i => ((pathCandidates path name)[i]?).getD name
            | none => name
          answer ((if isTracked then " is a tracked alias for " else " is ") ++ file) file

def type (args : List String) : Act Nat := do
  let mut status := 0
  for name in args do
    let one ← describe none true name
    status := if status = 0 then one else status
  return status

/-- The utility that says what a command is; running commands is not its part. -/
def command (args : List String) : Act Nat := do
  let (given, names) ← options "pvV" args
  match names with
  | [] => return 0
  | name :: _ =>
    if !has given 'v' && !has given 'V' then return 0
    describe (if has given 'p' then some standardPath else none) (has given 'V') name

def hash (args : List String) : Act Nat := do
  let (given, names) ← options "r" args
  if !given.isEmpty then
    Act.modify fun s => { s with found := [] }
    return 0
  let s ← Act.get
  if names.isEmpty then
    let ordered := s.found.mergeSort fun a b => bucket a.1 31 ≤ bucket b.1 31
    for (name, i) in ordered do
      Act.put (((pathCandidates s.searchPath name)[i]?).getD name ++ "\n")
    return 0
  let mut status := 0
  for name in names do
    Act.modify fun s => { s with found := s.found.filter fun f => f.1 ≠ name }
    match ← meaningIn s.searchPath true name with
    | .unknown e =>
      Act.warn (name ++ ": " ++ commandError e)
      status := 1
    | _ => pure ()
  return status

end Utility

end CommandShell.Script
