/-!
# Quoting in messages

How tools show names in their messages, so that a script could take them as they stand there. The
characters are those of bytes; only the printable ones of ASCII are shown as they are.
-/

namespace CommandShell.Tool

def isShown (c : Char) : Bool := 32 ≤ c.toNat && c.toNat < 127

/-- The escape of a character that is not shown. -/
def escapeText (c : Char) : List Char :=
  let letter : Option Char := match c.toNat with
    | 7 => some 'a'
    | 8 => some 'b'
    | 9 => some 't'
    | 10 => some 'n'
    | 11 => some 'v'
    | 12 => some 'f'
    | 13 => some 'r'
    | _ => none
  match letter with
  | some l => ['\\', l]
  | none =>
    let digits := Nat.toDigits 8 c.toNat
    '\\' :: List.replicate (3 - digits.length) '0' ++ digits

/-- Whether a character at some position makes a name be quoted. -/
def needsQuotes (cs : List Char) (i : Nat) (c : Char) : Bool :=
  !isShown c || " !\"$&()*;<=>[^`|?\\':".toList.contains c || ((c == '#' || c == '~') && i = 0) ||
    ((c == '\x7b' || c == '\x7d') && cs.length = 1)

/-- Whether a character means the same between double quotes and between single ones. -/
def isCompatible (i : Nat) (c : Char) : Bool :=
  c.isAlphanum || " %+,-./:]_'".toList.contains c || ((c == '#' || c == '~') && i = 0)

/-- Characters between single quotes, with escapes in quotes of their own. -/
def singleQuotes : Bool → List Char → List Char
  | _, [] => ['\'']
  | escaping, c :: cs =>
    if !isShown c then
      (if escaping then [] else ['\'', '$', '\'']) ++ escapeText c ++ singleQuotes true cs
    else
      let resume := if escaping then ['\'', '\''] else []
      resume ++ (if c == '\'' then ['\'', '\\', '\'', '\''] else [c]) ++ singleQuotes false cs

/-- A name as a script could take it. -/
def quoted (name : String) : String :=
  let cs := name.toList
  if cs.isEmpty then "''"
  else if !cs.zipIdx.any (fun (c, i) => needsQuotes cs i c) then name
  else if cs.contains '\'' && cs.zipIdx.all fun (c, i) => isCompatible i c then "\"" ++ name ++ "\""
  else String.ofList ('\'' :: singleQuotes false cs)

/-- A word between quotes, its own quotes and backslashes escaped. -/
def enclosed (word : String) : String :=
  let piece (c : Char) : List Char :=
    if c == '\'' || c == '\\' then ['\\', c] else if isShown c then [c] else escapeText c
  "'" ++ String.ofList (word.toList.flatMap piece) ++ "'"

/-- Where help is to be found. -/
def hint (name : String) : String := "Try '" ++ name ++ " --help' for more information.\n"

end CommandShell.Tool
