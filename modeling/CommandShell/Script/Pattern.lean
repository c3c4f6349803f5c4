import CommandShell.Script.Octets

/-!
# Patterns

Patterns match names and values: a star any characters, a question mark any one character, and
brackets one character of a set. An escaped character stands for itself. `patternOf` makes a pattern
of an expanded word, where a backslash that came with a value escapes what follows it.
-/

namespace CommandShell.Script

/-- A character and whether it is escaped. -/
abbrev Marked := Char × Bool

def plainText (cs : List Marked) : String := String.ofList (cs.map Prod.fst)

/-- The characters that quotes escape: those that mean something in a pattern or a path, and bytes
that scripts hold for other ends. -/
def isSpecial (c : Char) : Bool :=
  "!*?[=~:/-]\\".toList.contains c || (0x81 ≤ c.toNat && c.toNat ≤ 0x88)

/-- A text as it stands in quotes or outside of them: in quotes, special characters are escaped. -/
def markAll (quoted : Bool) (text : String) : List Marked :=
  text.toList.map fun c => (c, quoted && isSpecial c)

/-- A text whose characters are all escaped. -/
def escapeAll (text : String) : List Marked := text.toList.map fun c => (c, true)

/-- A part of an expanded word: a character, or a place where quotes begin or end. -/
inductive Glyph where
  | char (m : Marked)
  | quote
  deriving DecidableEq

namespace Glyph

/-- The characters of a word. -/
def marked (gs : List Glyph) : List Marked :=
  gs.filterMap fun
    | .char m => some m
    | .quote => none

/-- A word as a text. -/
def text (gs : List Glyph) : String := plainText (marked gs)

end Glyph

/-- A word as it is written down for a pattern, with a backslash before each escaped character, but
not if a backslash that is not escaped stands right before it. -/
def writtenFrom (afterBackslash : Bool) : List Glyph → List Char
  | [] => []
  | .quote :: rest => writtenFrom false rest
  | .char (c, true) :: rest => (if afterBackslash then [c] else ['\\', c]) ++ writtenFrom false rest
  | .char (c, false) :: rest => c :: writtenFrom (c = '\\') rest

/-- A word as it is written down for a pattern. What comes before all escaped characters and quotes
does not matter to those. -/
def written (word : List Glyph) : List Char :=
  let isPlain : Glyph → Bool
    | .char (_, escaped) => !escaped
    | .quote => false
  (Glyph.text (word.takeWhile isPlain)).toList ++ writtenFrom false (word.dropWhile isPlain)

/-- The characters of a written pattern. A backslash escapes the next one; at the end it stands for
itself. -/
def readPattern : List Char → List Marked
  | [] => []
  | ['\\'] => [('\\', true)]
  | '\\' :: c :: rest => (c, true) :: readPattern rest
  | c :: rest => (c, false) :: readPattern rest

/-- The pattern of an expanded word. A backslash that came with a value is read like one that was
written for an escaped character. -/
def patternOf (word : List Glyph) : List Marked := readPattern (written word)

/-- The order of bytes in ranges: the upper half comes first. -/
def rank (c : Char) : Int := if c.toNat < 128 then c.toNat else (c.toNat : Int) - 256

def isControl (c : Char) : Bool := c.toNat < 32 || c.toNat = 127

def isPrinting (c : Char) : Bool := 32 ≤ c.toNat && c.toNat < 127

/-- The classes of characters that have names. -/
def classes : List (String × (Char → Bool)) :=
  [("alnum", Char.isAlphanum), ("cntrl", isControl), ("lower", Char.isLower), ("space", isSpace),
   ("alpha", Char.isAlpha), ("digit", Char.isDigit), ("print", isPrinting), ("upper", Char.isUpper),
   ("blank", fun c => c == ' ' || c == '\t'), ("graph", fun c => isPrinting c && c != ' '),
   ("punct", fun c => isPrinting c && c != ' ' && !c.isAlphanum),
   ("xdigit", fun c => c.isDigit || ('a' ≤ c && c ≤ 'f') || ('A' ≤ c && c ≤ 'F'))]

/-- The class that is named after an opening bracket inside of a set, and what follows it. -/
def class? (ps : List Marked) : Option ((Char → Bool) × List Marked) :=
  classes.findSome? fun (name, test) =>
    let spelled := markAll false (":" ++ name ++ ":]")
    if spelled.isPrefixOf ps then some (test, ps.drop spelled.length) else none

/-- Whether a character is in a set, and what follows the set. The first member has been split off;
a set that is not closed is none. -/
def inSet (c : Char) : Nat → Bool → Marked → List Marked → Option (Bool × List Marked)
  | 0, _, _, _ => none
  | fuel + 1, found, m, ps =>
    let goOn (found : Bool) (ps : List Marked) : Option (Bool × List Marked) :=
      match ps with
      | [] => none
      | (']', false) :: rest => some (found, rest)
      | m :: rest => inSet c fuel found m rest
    match if m = ('[', false) then class? ps else none with
    | some (test, rest) => goOn (found || test c) rest
    | none =>
      match ps with
      | ('-', false) :: (b, escaped) :: rest =>
        if b = ']' && !escaped then goOn (found || m.1 == c) ps
        else goOn (found || (rank m.1 ≤ rank c && rank c ≤ rank b)) rest
      | ps => goOn (found || m.1 == c) ps

/-- Whether a character is in the set after an opening bracket, and what follows the set. -/
def bracket (c : Char) (ps : List Marked) : Option (Bool × List Marked) :=
  let (negated, ps) := match ps with
    | ('!', false) :: rest => (true, rest)
    | ps => (false, ps)
  match ps with
  | [] => none
  | m :: rest => (inSet c ps.length false m rest).map fun (found, rest) => (found != negated, rest)

/-- Whether a pattern matches a text; the fuel is the length of both together. -/
def matchesWith : Nat → List Marked → List Char → Bool
  | 0, ps, cs => ps.isEmpty && cs.isEmpty
  | fuel + 1, ps, cs =>
    match ps with
    | [] => cs.isEmpty
    | ('*', false) :: rest =>
      matchesWith fuel rest cs || (!cs.isEmpty && matchesWith fuel ps (cs.drop 1))
    | (p, escaped) :: rest =>
      match cs with
      | [] => false
      | c :: cs' =>
        if p = '?' && !escaped then matchesWith fuel rest cs'
        else
          match if p = '[' && !escaped then bracket c rest else none with
          | some (holds, rest') => holds && matchesWith fuel rest' cs'
          | none => p == c && matchesWith fuel rest cs'

def isMatch (pattern : List Marked) (text : String) : Bool :=
  let cs := text.toList
  matchesWith (pattern.length + cs.length + 1) pattern cs

/-- The border between two parameters in a text that holds all of them. -/
def border : Char := Char.ofNat 0

/-- The characters without the shortest or longest part that a pattern matches at their start or
their end. A part counts up to the first border, and parts that grow from the start end there. -/
def trim (atEnd longest : Bool) (pattern : List Marked) (cs : List Marked) : List Marked :=
  let isInner (m : Marked) : Bool := m.1 != border
  let fromStart := atEnd == longest
  let positions := List.range ((if fromStart then cs.takeWhile isInner else cs).length + 1)
  let positions := if fromStart then positions else positions.reverse
  let part (n : Nat) := (if atEnd then cs.drop n else cs.take n).takeWhile isInner
  match positions.find? fun n => isMatch pattern (plainText (part n)) with
  | some n => if atEnd then cs.take n else cs.drop n
  | none => cs

end CommandShell.Script
