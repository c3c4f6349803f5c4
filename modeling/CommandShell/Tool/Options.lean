import CommandShell.Tool.Quoting

/-!
# Options of tools

Options may stand anywhere among the arguments, short ones together in a word and long ones by any
unambiguous beginning of their names.
-/

namespace CommandShell.Tool

/-- The options that a tool knows: letters, and long names with the letters that they stand for. -/
structure OptionTable where
  letters : List Char := []
  names : List (String × Char) := []

/-- What the arguments of a tool say. -/
structure Arguments where
  letters : List Char := []
  operands : List String := []

/-- The letter of a long option, or what is wrong with it. -/
def longOption (table : OptionTable) (text : String) : Except String Char :=
  let name := String.ofList (text.toList.takeWhile (· != '='))
  let hasValue := text.toList.contains '='
  let fitting := table.names.filter fun n => name.toList.isPrefixOf n.1.toList
  let chosen := match table.names.find? fun n => n.1 = name with
    | some n => [n]
    | none => fitting
  match chosen with
  | [] => .error ("unrecognized option '--" ++ text ++ "'")
  | [(full, c)] =>
    if hasValue then .error ("option '--" ++ full ++ "' doesn't allow an argument") else .ok c
  | (_, c) :: _ =>
    if chosen.all fun n => n.2 = c then .ok c
    else
      .error ("option '--" ++ text ++ "' is ambiguous; possibilities:" ++
        String.join (chosen.map fun n => " '--" ++ n.1 ++ "'"))

/-- The letters of a word of short options. -/
def shortOptions (table : OptionTable) (cs : List Char) : Except String (List Char) :=
  match cs.find? fun c => !table.letters.contains c with
  | some c => .error ("invalid option -- '" ++ String.ofList [c] ++ "'")
  | none => .ok cs

/-- Read the arguments of a tool. -/
def readArguments (table : OptionTable) : List String → Except String Arguments
  | [] => .ok {}
  | "--" :: rest => .ok { operands := rest }
  | arg :: rest =>
    match arg.toList with
    | '-' :: '-' :: name => do
      let c ← longOption table (String.ofList name)
      let more ← readArguments table rest
      return { more with letters := c :: more.letters }
    | '-' :: c :: cs => do
      let letters ← shortOptions table (c :: cs)
      let more ← readArguments table rest
      return { more with letters := letters ++ more.letters }
    | _ => do
      let more ← readArguments table rest
      return { more with operands := arg :: more.operands }

end CommandShell.Tool
