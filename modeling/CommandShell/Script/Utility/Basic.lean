import CommandShell.Script.Condition
import CommandShell.Script.Format.Print

/-!
# Utilities

The commands that a script carries out by itself. The result of a utility is its status. Options
come first among its arguments; what follows them is left to the utility.
-/

namespace CommandShell.Script

/-- An option that was given, with its argument. -/
structure Given where
  letter : Char
  argument : String := ""

/-- Whether a letter is an option, and whether it takes an argument. -/
def optionKind? (letters : List Char) (c : Char) : Option Bool :=
  match letters with
  | [] => none
  | l :: ':' :: rest => if l = c then some true else optionKind? rest c
  | l :: rest => if l = c then some false else optionKind? rest c

/-- The options of one word. -/
def wordOptions (letters : List Char) : List Char → List String → Act (List Given × List String)
  | [], rest => return ([], rest)
  | c :: cs, rest => do
    match optionKind? letters c with
    | none => Act.fail ("Illegal option -" ++ String.ofList [c])
    | some false =>
      let (given, rest) ← wordOptions letters cs rest
      return ({ letter := c } :: given, rest)
    | some true =>
      if !cs.isEmpty then return ([{ letter := c, argument := String.ofList cs }], rest)
      match rest with
      | [] => Act.fail ("No arg for -" ++ String.ofList [c] ++ " option")
      | argument :: rest => return ([{ letter := c, argument }], rest)

/-- The options at the start of arguments, and the arguments that follow them. -/
def readOptions (letters : String) : Nat → List String → Act (List Given × List String)
  | 0, args => return ([], args)
  | fuel + 1, args =>
    match args with
    | [] => return ([], [])
    | "--" :: rest => return ([], rest)
    | arg :: rest =>
      match arg.toList with
      | '-' :: c :: cs => do
        let (given, rest) ← wordOptions letters.toList (c :: cs) rest
        let (more, rest) ← readOptions letters fuel rest
        return (given ++ more, rest)
      | _ => return ([], arg :: rest)

/-- The options that letters stand for, and the other arguments. -/
def options (letters : String) (args : List String) : Act (List Given × List String) :=
  readOptions letters (args.length + 1) args

def has (given : List Given) (letter : Char) : Bool := given.any fun g => g.letter = letter

/-- A text between single quotes; its own single quotes stand between double ones. -/
def singleQuoted (text : String) : String :=
  let isQuote (c : Char) : Bool := c == '\''
  let groups := text.toList.splitBy fun a b => isQuote a == isQuote b
  let quote (group : List Char) : String :=
    if group.head?.any isQuote then "\"" ++ String.ofList group ++ "\""
      else "'" ++ String.ofList group ++ "'"
  let start := if text.isEmpty || text.toList.head?.any isQuote then "''" else ""
  start ++ String.join (groups.map quote)

namespace Utility

def echo (args : List String) : Act Nat := do
  Act.put (Format.echo args)
  return 0

def printf (args : List String) : Act Nat := do
  match ← options "" args with
  | (_, []) => Act.fail "usage: printf format [arg ...]"
  | (_, format :: args) =>
    let (text, warnings, ending) := Format.print format args
    for warning in warnings do
      Act.warn warning
    Act.put text
    match ending with
    | .failed message => Act.fail message
    | _ => return if warnings.isEmpty then 0 else 1

def test (args : List String) : Act Nat := do
  let files ← Act.look
  match Condition.holds files (← Act.get).directory args with
  | .ok holds => return if holds then 0 else 1
  | .error message => Act.fail message

/-- A condition up to its closing bracket. -/
def bracket (args : List String) : Act Nat :=
  match args.getLast? with
  | some last => if last.startsWith "]" then test args.dropLast else Act.fail "missing ]"
  | none => Act.fail "missing ]"

end Utility

end CommandShell.Script
