import CommandShell.Process
import CommandShell.Script.Format.Number
import CommandShell.Tool.Options

/-!
# The tool that waits

It lets the time pass that its arguments add up to.
-/

namespace CommandShell.Tool.Sleep

open Script (bytesOf)

/-- The longest time that is ever waited, in microseconds. -/
def longest : Nat := 1000000000000000000

/-- A length of time in microseconds, rounded up: a number and perhaps a unit. -/
def duration? (text : String) : Option Nat :=
  let r := Script.Format.realAt text.toList
  let unit : Option Nat := match r.rest with
    | [] | ['s'] => some 1
    | ['m'] => some 60
    | ['h'] => some 3600
    | ['d'] => some 86400
    | _ => none
  if r.rest.length = text.length then none
  else
    unit.bind fun unit =>
      match r.value with
      | .finite negative m e =>
        if negative && m != 0 then none
        else
          let (num, den) := Script.Format.fractionOf m e
          some (min longest ((num * unit * 1000000 + den - 1) / den))
      | .infinite false => some longest
      | _ => none

/-- Run the tool. -/
def run (name : String) (args : List String) : Process :=
  let fail (message : String) : Process :=
    .write 2 (bytesOf (message ++ hint name)) fun _ => Process.ended 1
  match readArguments {} args with
  | .error message => fail (name ++ ": " ++ message ++ "\n")
  | .ok arguments =>
    match arguments.operands with
    | [] => fail (name ++ ": missing operand\n")
    | operands =>
      match operands.filter fun o => (duration? o).isNone with
      | [] => .sleep ((operands.filterMap duration?).foldl (· + ·) 0) fun _ => Process.ended 0
      | bad =>
        fail (String.join (bad.map fun o =>
          name ++ ": invalid time interval " ++ enclosed o ++ "\n"))

end CommandShell.Tool.Sleep
