import CommandShell.Json.Value
import CommandShell.Text.Quoted

/-!
# Writing JSON

`Json.render` writes a value on one line in ASCII: what is outside the printable ASCII range is
escaped by its UTF-16 code units. `Json.renderMembers` writes an object of texts with one member to
a line. `Json.display` is the form in which a value is shown to people: a text as it is, everything
else as a literal.
-/

namespace CommandShell

namespace Json

/-- A code unit inside a JSON text. -/
def escapeUnit (u : UInt16) : List Char :=
  let n := u.toNat
  if n = 34 then ['\\', '"']
  else if n = 92 then ['\\', '\\']
  else if n = 10 then ['\\', 'n']
  else if n = 13 then ['\\', 'r']
  else if n = 9 then ['\\', 't']
  else if n = 12 then ['\\', 'f']
  else if n = 8 then ['\\', 'b']
  else if 0x20 ≤ n && n < 0x7F then [Char.ofNat n]
  else '\\' :: 'u' :: (Text.hex 4 n).toList

/-- A JSON text. -/
def renderString (s : CodeUnits) : String :=
  "\"" ++ String.ofList (s.flatMap escapeUnit) ++ "\""

/-- A number as JSON has it, the special values by name. -/
def renderFloat (x : Binary64) : String :=
  match x with
  | .undefined => "NaN"
  | .infinite negative => if negative then "-Infinity" else "Infinity"
  | x => x.text

mutual

/-- A value on one line. -/
def render : Json → String
  | .null => "null"
  | .bool b => if b then "true" else "false"
  | .int i => toString i
  | .float x => renderFloat x
  | .str s => renderString s
  | .arr items => "[" ++ renderItems items ++ "]"
  | .obj members => "\x7b" ++ renderPairs members ++ "\x7d"

/-- The items of an array. -/
def renderItems : List Json → String
  | [] => ""
  | [v] => render v
  | v :: rest => render v ++ ", " ++ renderItems rest

/-- The members of an object. -/
def renderPairs : List (CodeUnits × Json) → String
  | [] => ""
  | [(k, v)] => renderString k ++ ": " ++ render v
  | (k, v) :: rest => renderString k ++ ": " ++ render v ++ ", " ++ renderPairs rest

end

/-- An object of texts, one member to a line, indented by two spaces. -/
def renderMembers (members : List (CodeUnits × CodeUnits)) : String :=
  if members.isEmpty then "\x7b\x7d"
  else
    "\x7b\n" ++ String.intercalate ",\n"
      (members.map fun (k, v) => "  " ++ renderString k ++ ": " ++ renderString v) ++ "\n\x7d"

mutual

/-- A value as a literal. -/
def literal : Json → String
  | .null => "None"
  | .bool b => if b then "True" else "False"
  | .int i => toString i
  | .float x => x.text
  | .str s => Text.quotedUnits s
  | .arr items => "[" ++ literalItems items ++ "]"
  | .obj members => "\x7b" ++ literalPairs members ++ "\x7d"

def literalItems : List Json → String
  | [] => ""
  | [v] => literal v
  | v :: rest => literal v ++ ", " ++ literalItems rest

def literalPairs : List (CodeUnits × Json) → String
  | [] => ""
  | [(k, v)] => Text.quotedUnits k ++ ": " ++ literal v
  | (k, v) :: rest => Text.quotedUnits k ++ ": " ++ literal v ++ ", " ++ literalPairs rest

end

/-- A value as it is shown inside a message. -/
def display : Json → CodeUnits
  | .str s => s
  | v => .ofString (literal v)

end Json

end CommandShell
