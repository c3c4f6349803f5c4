import CommandShell.Text.Blank
import CommandShell.Text.DecimalDigit

/-!
# Integers written in a text

An integer is an optional sign and decimal digits of any script, with single underscores allowed
between digits and white space allowed around it. The information separators U+001C to U+001F are
not white space here. A numeral of more than `maxDigits` digits is refused.
-/

namespace CommandShell.Text

/-- The most digits that a numeral may have. -/
def maxDigits : Nat := 4300

/-- White space that may surround a numeral. -/
def isNumeralSpace (c : Char) : Bool :=
  isBlank c && !(28 ≤ c.toNat && c.toNat ≤ 31)

/-- The values of the digits of a numeral, newest first, given the digits before; `gap` says that an
underscore stands right before. -/
def digitsFrom (gap : Bool) : List Nat → List Char → Option (List Nat)
  | seen, [] => if gap then none else some seen
  | seen, c :: rest =>
    if c = '_' then if gap then none else digitsFrom true seen rest
    else (digitValue? c).bind fun d => digitsFrom false (d :: seen) rest

/-- The number written by digits, given newest first. -/
def valueOfDigits (digits : List Nat) : Nat :=
  digits.foldr (fun d n => 10 * n + d) 0

/-- Read a numeral without sign. -/
def natural? (cs : List Char) : Option Nat :=
  (digitsFrom true [] cs).bind fun ds =>
    if ds.length ≤ maxDigits then some (valueOfDigits ds) else none

/-- Read an integer. -/
def integer? (s : String) : Option Int :=
  let cs := s.toList.dropWhile isNumeralSpace
  let cs := (cs.reverse.dropWhile isNumeralSpace).reverse
  match cs with
  | '-' :: rest => (natural? rest).map fun n => -(n : Int)
  | '+' :: rest => (natural? rest).map Int.ofNat
  | cs => (natural? cs).map Int.ofNat

end CommandShell.Text
