import CommandShell.Script.Act

/-!
# Variables

Variables are given values and properties. Some are watched: the search path, after which programs
are looked for anew, and the number of the parameter that options are read from.
-/

namespace CommandShell.Script

/-- White space at the start of a text is passed over, a sign may follow. -/
def splitSign (cs : List Char) : Bool × List Char :=
  match cs.dropWhile isSpace with
  | '-' :: rest => (true, rest)
  | '+' :: rest => (false, rest)
  | rest => (false, rest)

/-- The number that digits give. -/
def decimal (ds : List Char) : Nat := ds.foldl (fun n d => 10 * n + (d.toNat - '0'.toNat)) 0

/-- The largest number of 64 bits with a sign. -/
def largest : Nat := 0x7FFFFFFFFFFFFFFF

/-- Whether a number fits into 64 bits with a sign. -/
def fits (n : Int) : Bool := -(largest : Int) - 1 ≤ n && n ≤ largest

/-- A whole number in decimal; blanks around it do not count. -/
def integer? (text : String) : Option Int :=
  let (negative, cs) := splitSign text.toList
  let ds := cs.takeWhile Char.isDigit
  if ds.isEmpty || !(cs.drop ds.length).all isSpace then none
  else
    let n : Int := if negative then -(decimal ds : Int) else decimal ds
    if fits n then some n else none

/-- The largest number that counts something. -/
def largestCount : Nat := 0x7FFFFFFF

/-- A number that counts something. -/
def count? (text : String) : Option Nat :=
  match integer? text with
  | some (.ofNat n) => if n ≤ largestCount then some n else none
  | _ => none

namespace Act

/-- The number that a text stands for. -/
def count (text : String) : Act Nat :=
  match count? text with
  | some n => return n
  | none => fail ("Illegal number: " ++ text)

/-- The properties that come with a value. -/
structure Grant where
  exported : Bool := false
  readOnly : Bool := false
  fixed : Bool := false
  /-- Nobody is told of the change. -/
  quiet : Bool := false

/-- What happens when a variable that is watched changes. -/
def notice (name value : String) : Act Unit := do
  if name = "PATH" then modify fun s => { s with found := [] }
  else if name = "OPTIND" then
    let n ← count value
    modify fun s => { s with optionIndex := if n = 0 then 1 else n, optionOffset := none }

/-- Give a variable a value, or take it away, and add properties to it. -/
def assign (name : String) (value : Option String) (grant : Grant := {}) : Act Unit := do
  let s ← get
  let exported := grant.exported || s.isOn "allexport"
  match s.lookUp? name with
  | some v => do
    if v.readOnly then fail (name ++ ": is read only")
    if !grant.quiet then notice name (value.getD "")
    if value.isNone && !exported && !grant.readOnly && !grant.fixed && !v.fixed then
      modify fun s => s.dropVariable name
    else
      modify fun s => s.putVariable
        { v with
          value, exported := v.exported || exported, readOnly := v.readOnly || grant.readOnly
          fixed := v.fixed || grant.fixed }
  | none =>
    if value.isSome || exported || grant.readOnly || grant.fixed then
      modify fun s => s.putVariable
        { name, value, exported, readOnly := grant.readOnly, fixed := grant.fixed }

/-- Give a variable a value after a look at its name. -/
def setVariable (name : String) (value : Option String) (grant : Grant := {}) : Act Unit := do
  let name := String.ofList (name.toList.takeWhile (· != '='))
  if !isName name then fail (name ++ ": bad variable name")
  assign name value grant

/-- A name and perhaps a value for it. -/
def splitAssignment (text : String) : String × Option String :=
  let name := text.toList.takeWhile (· != '=')
  match text.toList.drop name.length with
  | _ :: value => (String.ofList name, some (String.ofList value))
  | [] => (text, none)

/-- Note what is to be restored. -/
def keep (k : Kept) : Act Unit := modify fun s =>
  match s.kept with
  | frame :: frames => { s with kept := (k :: frame) :: frames }
  | [] => s

/-- Let a variable have its value only for a while. -/
def assignForNow (text : String) (exported : Bool) : Act Unit := do
  if text = "-" then
    let s ← get
    keep (.switches s.switches)
  else
    let (name, value) := splitAssignment text
    match (← get).lookUp? name with
    | none =>
      setVariable name value { exported, fixed := true }
      keep (.binding name none)
    | some v =>
      keep (.binding name (some v))
      modify fun s => s.putVariable { v with fixed := true }
      if value.isSome then assign name value { exported }

/-- Restore what has been changed for a while. -/
def restore : List Kept → Act Unit
  | [] => return
  | .switches before :: rest => do
    modify fun s => { s with switches := before }
    restore rest
  | .binding name none :: rest => do
    modify fun s => s.dropVariable name
    notice name ""
    restore rest
  | .binding name (some v) :: rest => do
    notice name (v.value.getD "")
    modify fun s => s.putVariable v
    restore rest

/-- Restore what has been changed, until only so many functions and commands are left. -/
def unwindKept (depth : Nat) : Nat → Act Unit
  | 0 => return
  | fuel + 1 => do
    let s ← get
    match s.kept with
    | frame :: frames =>
      if s.kept.length ≤ depth then return
      set { s with kept := frames }
      restore frame
      unwindKept depth fuel
    | [] => return

end Act

end CommandShell.Script
