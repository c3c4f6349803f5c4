/-!
# Code units

A text as a sequence of UTF-16 code units. A high unit before a low unit is one character; a unit
that is half of such a pair may also stand alone, and then it is no character at all.
-/

namespace CommandShell

/-- A text as UTF-16 code units. -/
abbrev CodeUnits := List UInt16

namespace CodeUnits

def isHigh (u : UInt16) : Bool := 0xD800 ≤ u && u ≤ 0xDBFF

def isLow (u : UInt16) : Bool := 0xDC00 ≤ u && u ≤ 0xDFFF

/-- The character of a high and a low unit. -/
def join (high low : UInt16) : Char :=
  Char.ofNat (0x10000 + (high.toNat - 0xD800) * 0x400 + (low.toNat - 0xDC00))

/-- The units of a character. -/
def ofChar (c : Char) : CodeUnits :=
  let n := c.toNat
  if n < 0x10000 then [n.toUInt16]
  else [(0xD800 + (n - 0x10000) / 0x400).toUInt16, (0xDC00 + (n - 0x10000) % 0x400).toUInt16]

/-- The units of a text. -/
def ofString (s : String) : CodeUnits := s.toList.flatMap ofChar

/-- A character, or half of a pair that stands alone. -/
inductive Letter where
  | char (c : Char)
  | half (u : UInt16)
  deriving DecidableEq, Repr

/-- The letters of units, each pair as one. -/
def letters : CodeUnits → List Letter
  | [] => []
  | [u] => [if isHigh u || isLow u then .half u else .char (Char.ofNat u.toNat)]
  | u :: v :: rest =>
    if isHigh u && isLow v then .char (join u v) :: letters rest
    else (if isHigh u || isLow u then .half u else .char (Char.ofNat u.toNat)) ::
      letters (v :: rest)

/-- The character that takes the place of a letter. -/
def Letter.toChar : Letter → Char
  | .char c => c
  | .half _ => Char.ofNat 0xFFFD

def Letter.isHalf : Letter → Bool
  | .char _ => false
  | .half _ => true

/-- The code point of a letter. -/
def Letter.codePoint : Letter → Nat
  | .char c => c.toNat
  | .half u => u.toNat

/-- The code points of units, which they are ordered by. -/
def codePoints (units : CodeUnits) : List Nat := units.letters.map Letter.codePoint

/-- The text of units; halves of pairs that stand alone are replaced. -/
def text (units : CodeUnits) : String := String.ofList (units.letters.map Letter.toChar)

end CodeUnits

end CommandShell
