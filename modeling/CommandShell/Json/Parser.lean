import CommandShell.Json.Value
import CommandShell.Text.Integer

/-!
# Reading JSON

The reader accepts the JSON grammar and the three names `NaN`, `Infinity` and `-Infinity`. White
space is the space, the tab, the line feed and the carriage return. A number with a fraction or an
exponent is a float, any other an integer of at most `Text.maxDigits` digits. Arrays and objects may
be nested to any depth.
-/

namespace CommandShell

namespace Json

/-- Why a text is no JSON. -/
inductive Problem where
  | byteOrderMark
  | expectingValue
  | expectingName
  | expectingColon
  | expectingComma
  | unterminated
  | controlCharacter
  | badEscape
  | badUnit
  | extraData
  deriving DecidableEq, Repr

def Problem.text : Problem → String
  | .byteOrderMark => "Unexpected UTF-8 BOM (decode using utf-8-sig)"
  | .expectingValue => "Expecting value"
  | .expectingName => "Expecting property name enclosed in double quotes"
  | .expectingColon => "Expecting ':' delimiter"
  | .expectingComma => "Expecting ',' delimiter"
  | .unterminated => "Unterminated string starting at"
  | .controlCharacter => "Invalid control character at"
  | .badEscape => "Invalid \\escape"
  | .badUnit => "Invalid \\uXXXX escape"
  | .extraData => "Extra data"

/-- A text that is no JSON value. A problem is placed by the number of characters from it to the end
of the text. -/
inductive ParseError where
  | problem (p : Problem) (left : Nat)
  | tooManyDigits (count : Nat)
  deriving DecidableEq, Repr

/-- The wording of an error found in `source`. -/
def ParseError.message (source : String) : ParseError → String
  | .tooManyDigits count =>
    "Exceeds the limit (4300 digits) for integer string conversion: value has " ++ toString count ++
      " digits; use sys.set_int_max_str_digits() to increase the limit"
  | .problem p left =>
    let before := source.toList.take (source.toList.length - left)
    let column := (before.reverse.takeWhile (· != '\n')).length + 1
    p.text ++ ": line " ++ toString ((before.filter (· == '\n')).length + 1) ++ " column " ++
      toString column ++ " (char " ++ toString before.length ++ ")"

abbrev Parsed (α : Type) := Except ParseError (α × List Char)

def failAt {α : Type} (p : Problem) (rest : List Char) : Parsed α :=
  .error (.problem p rest.length)

def isSpace (c : Char) : Bool :=
  c == ' ' || c == '\t' || c == '\n' || c == '\r'

def skipSpace (cs : List Char) : List Char := cs.dropWhile isSpace

/-- The value of a hexadecimal digit. -/
def hexValue? (c : Char) : Option Nat :=
  let n := c.toNat
  if 48 ≤ n && n ≤ 57 then some (n - 48)
  else if 97 ≤ n && n ≤ 102 then some (n - 87)
  else if 65 ≤ n && n ≤ 70 then some (n - 55)
  else none

/-- A code unit of four hexadecimal digits; they do not stand at the end of a text, which is quoted.
-/
def unit? : List Char → Option (UInt16 × List Char)
  | a :: b :: c :: d :: e :: rest =>
    match hexValue? a, hexValue? b, hexValue? c, hexValue? d with
    | some w, some x, some y, some z =>
      some ((((w * 16 + x) * 16 + y) * 16 + z).toUInt16, e :: rest)
    | _, _, _, _ => none
  | _ => none

/-- The character that a simple escape stands for. -/
def simpleEscape? (c : Char) : Option Char :=
  match c with
  | '"' => some '"'
  | '\\' => some '\\'
  | '/' => some '/'
  | 'b' => some (Char.ofNat 8)
  | 'f' => some (Char.ofNat 12)
  | 'n' => some '\n'
  | 'r' => some '\r'
  | 't' => some '\t'
  | _ => none

/-- The rest of a text after its opening quote, given the code units read so far, newest first.
`opening` counts the characters from the quote on. -/
def parseUnits (opening : Nat) : Nat → CodeUnits → List Char → Parsed CodeUnits
  | 0, _, _ => .error (.problem .unterminated opening)
  | fuel + 1, seen, cs =>
    match cs with
    | [] => .error (.problem .unterminated opening)
    | '"' :: rest => .ok (seen.reverse, rest)
    | '\\' :: 'u' :: rest =>
      match unit? rest with
      | some (u, rest') => parseUnits opening fuel (u :: seen) rest'
      | none => failAt .badUnit ('u' :: rest)
    | '\\' :: c :: rest =>
      match simpleEscape? c with
      | some e => parseUnits opening fuel (e.toNat.toUInt16 :: seen) rest
      | none => failAt .badEscape cs
    | '\\' :: [] => .error (.problem .unterminated opening)
    | c :: rest =>
      if c.toNat < 0x20 then failAt .controlCharacter cs
      else parseUnits opening fuel ((CodeUnits.ofChar c).reverse ++ seen) rest

/-- A text, after its opening quote. -/
def parseString (rest : List Char) : Parsed CodeUnits :=
  parseUnits (rest.length + 1) (rest.length + 1) [] rest

def isDigit (c : Char) : Bool := 48 ≤ c.toNat && c.toNat ≤ 57

/-- The number written by decimal digits. -/
def natOfDigits (ds : List Char) : Nat :=
  ds.foldl (fun n c => 10 * n + (c.toNat - 48)) 0

/-- The digits of the fraction, if a point with a digit follows. -/
def parseFraction (cs : List Char) : Option (List Char) × List Char :=
  match cs with
  | '.' :: rest =>
    let ds := rest.takeWhile isDigit
    if ds.isEmpty then (none, cs) else (some ds, rest.dropWhile isDigit)
  | _ => (none, cs)

/-- The exponent, if a mark with a digit follows. -/
def parseExponent (cs : List Char) : Option Int × List Char :=
  match cs with
  | c :: rest =>
    if c = 'e' || c = 'E' then
      let (negative, body) := match rest with
        | '-' :: r => (true, r)
        | '+' :: r => (false, r)
        | r => (false, r)
      let ds := body.takeWhile isDigit
      if ds.isEmpty then (none, cs)
      else
        let n : Int := natOfDigits ds
        (some (if negative then -n else n), body.dropWhile isDigit)
    else (none, cs)
  | [] => (none, cs)

/-- A number; `start` is where it begins, sign included. -/
def parseNumber (start : List Char) : Parsed Json :=
  let (negative, cs) := match start with
    | '-' :: rest => (true, rest)
    | cs => (false, cs)
  match cs with
  | [] => failAt .expectingValue start
  | d :: _ =>
    if !isDigit d then failAt .expectingValue start
    else
      let ds := if d = '0' then [d] else cs.takeWhile isDigit
      let rest := cs.drop ds.length
      let (fraction, rest) := parseFraction rest
      let (exponent, rest) := parseExponent rest
      match fraction, exponent with
      | none, none =>
        if Text.maxDigits < ds.length then .error (.tooManyDigits ds.length)
        else
          let n : Int := natOfDigits ds
          .ok (.int (if negative then -n else n), rest)
      | fraction, exponent =>
        let fs := fraction.getD []
        .ok (.float (Binary64.ofDecimal negative (natOfDigits (ds ++ fs))
          (exponent.getD 0 - fs.length)), rest)

/-- A name, if the text goes on with it. -/
def dropName? (name : String) (cs : List Char) : Option (List Char) :=
  if name.toList.isPrefixOf cs then some (cs.drop name.length) else none

/-- The names that stand for values. -/
def names : List (String × Json) :=
  [("null", .null), ("true", .bool true), ("false", .bool false), ("NaN", .float .undefined),
   ("Infinity", .float (.infinite false)), ("-Infinity", .float (.infinite true))]

/-- A name or a number. -/
def parseScalar (cs : List Char) : Parsed Json :=
  match names.findSome? fun (name, v) => (dropName? name cs).map fun rest => (v, rest) with
  | some found => .ok found
  | none => parseNumber cs

mutual

/-- A value; the text begins with it. -/
def parseValue : Nat → List Char → Parsed Json
  | 0, cs => failAt .expectingValue cs
  | fuel + 1, cs =>
    match cs with
    | [] => failAt .expectingValue cs
    | c :: rest =>
      if c = '"' then (parseString rest).map fun (s, rest) => (.str s, rest)
      else if c = '[' then
        match skipSpace rest with
        | ']' :: rest' => .ok (.arr [], rest')
        | rest' => (parseItems fuel rest').map fun (items, rest) => (.arr items, rest)
      else if c = '\x7b' then
        match skipSpace rest with
        | '\x7d' :: rest' => .ok (.obj [], rest')
        | rest' => (parseMembers fuel [] rest').map fun (members, rest) => (.obj members, rest)
      else parseScalar cs

/-- The items of an array and the bracket after them. -/
def parseItems : Nat → List Char → Parsed (List Json)
  | 0, cs => failAt .expectingValue cs
  | fuel + 1, cs =>
    match parseValue fuel cs with
    | .error e => .error e
    | .ok (v, rest) =>
      match skipSpace rest with
      | ']' :: rest' => .ok ([v], rest')
      | ',' :: rest' => (parseItems fuel (skipSpace rest')).map fun (vs, rest) => (v :: vs, rest)
      | rest' => failAt .expectingComma rest'

/-- The members of an object and the brace after them, on top of those read so far. -/
def parseMembers : Nat → List (CodeUnits × Json) → List Char → Parsed (List (CodeUnits × Json))
  | 0, _, cs => failAt .expectingName cs
  | fuel + 1, seen, cs =>
    match cs with
    | '"' :: rest =>
      match parseString rest with
      | .error e => .error e
      | .ok (key, rest) =>
        match skipSpace rest with
        | ':' :: rest' =>
          match parseValue fuel (skipSpace rest') with
          | .error e => .error e
          | .ok (v, rest) =>
            match skipSpace rest with
            | '\x7d' :: rest' => .ok (setMember seen key v, rest')
            | ',' :: rest' => parseMembers fuel (setMember seen key v) (skipSpace rest')
            | rest' => failAt .expectingComma rest'
        | rest' => failAt .expectingColon rest'
    | _ => failAt .expectingName cs

end

/-- Read a text as one JSON value. -/
def parse (source : String) : Except ParseError Json :=
  let cs := source.toList
  match cs with
  | '\uFEFF' :: _ => .error (.problem .byteOrderMark cs.length)
  | _ =>
    match parseValue (2 * cs.length + 2) (skipSpace cs) with
    | .error e => .error e
    | .ok (v, rest) =>
      match skipSpace rest with
      | [] => .ok v
      | rest' => .error (.problem .extraData rest'.length)

end Json

end CommandShell
