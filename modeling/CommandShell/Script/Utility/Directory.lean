import CommandShell.Script.Utility.Basic

/-!
# Utilities for the directory

A script knows its directory by the way that it came. Changing it takes names back without a look at
links, unless the physical directory is asked for.
-/

namespace CommandShell.Script

/-- The text of a place. -/
def placeText (place : Place) : String := octetsOf (Path.ofParts place).text

/-- Names after others: each `..` takes back the one before, and `.` and empty names are left
out. -/
def followNames (before names : List String) : List String :=
  names.foldl (fun done name =>
    if name = "" || name = "." then done
    else if name = ".." then done.dropLast
    else done ++ [name]) before

/-- Where a text leads from a directory, by names alone. The names of the directory stay as they
are, and two slashes in front are kept. -/
def normalise (told text : String) : String :=
  let start :=
    if !text.startsWith "/" then (if told.endsWith "/" then told else told ++ "/").toList
    else if text.startsWith "//" && !text.startsWith "///" then ['/', '/']
    else ['/']
  let root := if start[1]? = some '/' then ['/', '/'] else ['/']
  let before := (Text.partsAt '/' (String.ofList (start.drop root.length))).dropLast
  String.ofList root ++ String.intercalate "/" (followNames before (Text.partsAt '/' text))

/-- The files that a name is looked for as, along a search path. -/
def pathCandidates (path name : String) : List String :=
  (Text.partsAt ':' path).map fun d => if d = "" then name else d ++ "/" ++ name

namespace Utility

/-- Whether the physical directory is meant: the last option says so. -/
def isPhysical (given : List Given) : Bool := (given.getLast?.map fun g => g.letter) = some 'P'

/-- Note a new directory. -/
def enter (place : Place) (told : String) : Act Unit := do
  let before := (← Act.get).told
  Act.setVariable "OLDPWD" (some before) { exported := true }
  Act.modify fun s =>
    let isFixed := (pathCandidates s.searchPath "x").all fun p => p.startsWith "/"
    { s with directory := place, told, found := if isFixed then s.found else [] }
  Act.setVariable "PWD" (some told) { exported := true }

/-- Change the directory; whether that worked is the result. -/
def change (text : String) (physical : Bool) : Act Bool := do
  let s ← Act.get
  let files ← Act.look
  let target := if physical then text else normalise s.told text
  match files.statText s.directory (textOf target) with
  | .ok (place, .dir) =>
    if place ∈ files.closed then return false
    enter place (if physical then placeText place else target)
    return true
  | _ => return false

/-- Whether a text names a directory without a search. -/
def isDirect (text : String) : Bool :=
  match text.toList with
  | '/' :: _ | ['.'] | '.' :: '/' :: _ | ['.', '.'] | '.' :: '.' :: '/' :: _ => true
  | _ => false

def cd (args : List String) : Act Nat := do
  let (given, args) ← options "LP" args
  let s ← Act.get
  let (target, shows) := match args.head? with
    | none => ((s.value? "HOME").getD "", false)
    | some "-" => ((s.value? "OLDPWD").getD "", true)
    | some text => (text, false)
  let files ← Act.look
  let isDirectory (text : String) : Bool :=
    match files.statText s.directory (textOf text) with
    | .ok (_, .dir) => true
    | _ => false
  let direct := isDirect target
  let target := if target = "" then "." else target
  let search := if direct then [] else
    match s.value? "CDPATH" with
    | none => []
    | some path =>
      (Text.partsAt ':' path).map fun d => (d != "", if d = "" then target else d ++ "/" ++ target)
  let (shows, path) := match search.find? fun c => isDirectory c.2 with
    | some (named, path) => (shows || named, path)
    | none => (shows, target)
  if ← change path (isPhysical given) then
    if shows then Act.put ((← Act.get).told ++ "\n")
    return 0
  else Act.fail ("can't cd to " ++ target)

def pwd (args : List String) : Act Nat := do
  let (given, _) ← options "LP" args
  let s ← Act.get
  Act.put ((if isPhysical given then placeText s.directory else s.told) ++ "\n")
  return 0

/-- Three bits as letters. -/
def permissionLetters (bits : Nat) : String :=
  (if bits / 4 % 2 = 1 then "r" else "") ++ (if bits / 2 % 2 = 1 then "w" else "") ++
    (if bits % 2 = 1 then "x" else "")

/-- The permissions that a mask leaves, in letters. -/
def maskLetters (mask : Nat) : String :=
  let left := 511 - mask % 512
  "u=" ++ permissionLetters (left / 64) ++ ",g=" ++ permissionLetters (left / 8 % 8) ++ ",o=" ++
    permissionLetters (left % 8)

/-- The bits that letters stand for. -/
def permissionBits (cs : List Char) : Nat :=
  (if cs.contains 'r' then 4 else 0) + (if cs.contains 'w' then 2 else 0) +
    (if cs.contains 'x' then 1 else 0)

/-- The permissions after a change in letters. -/
def applyClause (left : Nat) (clause : String) : Option Nat :=
  let cs := clause.toList
  let who := cs.takeWhile fun c => "ugoa".toList.contains c
  match cs.drop who.length with
  | o :: letters =>
    if !"+-=".toList.contains o || !letters.all (fun c => "rwx".toList.contains c) then none
    else
      let bits := permissionBits letters
      let change (old : Nat) : Nat :=
        if o == '=' then bits else if o == '+' then Nat.lor old bits else old - Nat.land old bits
      let isMeant (c : Char) : Bool := who.isEmpty || who.contains c || who.contains 'a'
      let part (c : Char) (old : Nat) : Nat := if isMeant c then change old else old
      some (64 * part 'u' (left / 64) + 8 * part 'g' (left / 8 % 8) + part 'o' (left % 8))
  | [] => none

def umask (args : List String) : Act Nat := do
  let (given, args) ← options "S" args
  let mask := (← Act.get).mask
  match args with
  | [] =>
    let digits := Nat.toDigits 8 mask
    Act.put ((if given.isEmpty then String.ofList (List.replicate (4 - digits.length) '0' ++ digits)
      else maskLetters mask) ++ "\n")
    return 0
  | arg :: _ =>
    if arg.toList.head?.any Char.isDigit then
      if !arg.toList.all Format.isOctal then Act.fail ("Illegal number: " ++ arg)
      let mask := arg.toList.foldl (fun n c => 8 * n + (c.toNat - '0'.toNat)) 0 % 512
      Act.modify fun s => { s with mask }
      return 0
    let left :=
      (Text.partsAt ',' arg).foldl (fun left clause => left.bind fun l => applyClause l clause)
      (some (511 - mask % 512))
    match left with
    | some left =>
      Act.modify fun s => { s with mask := 511 - left }
      return 0
    | none => Act.fail ("Illegal mode: " ++ arg)

end Utility

end CommandShell.Script
