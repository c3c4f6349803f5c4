import CommandShell.Text.CodeUnits
import CommandShell.Text.Printable

/-!
# Quoted texts

A text is shown between single quotes, or between double quotes when it holds a single quote and no
double quote. The quote in use and the backslash are escaped, and so is every character that is not
printable and every half of a pair of code units that stands alone.
-/

namespace CommandShell.Text

/-- The lower-case hexadecimal digits of a number, at least `width` of them. -/
def hex (width n : Nat) : String :=
  let ds := Nat.toDigits 16 n
  String.ofList (List.replicate (width - ds.length) '0' ++ ds)

/-- A character inside quotes. -/
def quoteChar (quote c : Char) : String :=
  let n := c.toNat
  if c = quote || c = '\\' then String.ofList ['\\', c]
  else if c = '\t' then "\\t"
  else if c = '\n' then "\\n"
  else if c = '\r' then "\\r"
  else if n < 0x20 || n == 0x7F then "\\x" ++ hex 2 n
  else if n < 0x7F || isPrintable c then String.ofList [c]
  else if n < 0x100 then "\\x" ++ hex 2 n
  else if n < 0x10000 then "\\u" ++ hex 4 n
  else "\\U" ++ hex 8 n

/-- A letter inside quotes. -/
def quoteLetter (quote : Char) : CodeUnits.Letter → String
  | .char c => quoteChar quote c
  | .half u => "\\u" ++ hex 4 u.toNat

/-- Letters between quotes. -/
def quotedLetters (letters : List CodeUnits.Letter) : String :=
  let quote := if letters.contains (.char '\'') && !letters.contains (.char '"') then '"' else '\''
  String.ofList [quote] ++ String.join (letters.map (quoteLetter quote)) ++ String.ofList [quote]

/-- A text of code units between quotes. -/
def quotedUnits (units : CodeUnits) : String := quotedLetters units.letters

/-- A text between quotes. -/
def quoted (s : String) : String := quotedLetters (s.toList.map .char)

end CommandShell.Text
