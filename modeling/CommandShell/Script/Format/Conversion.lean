import CommandShell.Number.Binary64
import CommandShell.Script.Arithmetic
import CommandShell.Script.Format.Escape

/-!
# Conversions

How numbers and texts are laid out in a field: its width, its precision and the signs that are asked
for.
-/

namespace CommandShell.Script.Format

/-- The flags, the width and the precision of a conversion. -/
structure Spec where
  left : Bool := false
  zero : Bool := false
  plus : Bool := false
  blank : Bool := false
  alternate : Bool := false
  width : Nat := 0
  precision : Option Nat := none
  deriving Repr

/-- Whether nothing can be laid out in so wide a field or with so many digits. -/
def Spec.isTooLarge (s : Spec) : Bool := s.width > 0x7fffffff || s.precision.any (· > 0x7fffffff)

/-- Fill a text up to the width. -/
def pad (s : Spec) (text : List Char) : List Char :=
  let fill := s.width - text.length
  if s.left then text ++ List.replicate fill ' ' else List.replicate fill ' ' ++ text

/-- Fill a number up to the width, perhaps with zeros behind what comes before its digits. -/
def padNumber (s : Spec) (zeros : Bool) (lead digits : List Char) : List Char :=
  if zeros && !s.left then
    lead ++ List.replicate (s.width - (lead.length + digits.length)) '0' ++ digits
  else pad s (lead ++ digits)

/-- The sign of a number. -/
def sign (s : Spec) (negative : Bool) : List Char :=
  if negative then ['-'] else if s.plus then ['+'] else if s.blank then [' '] else []

/-- Digits with zeros in front up to the precision; nothing is left of zero without any digits. -/
def precise (s : Spec) (n : Nat) (digits : List Char) : List Char :=
  match s.precision with
  | none => digits
  | some p => if p = 0 && n = 0 then [] else List.replicate (p - digits.length) '0' ++ digits

/-- A number with its sign. -/
def signed (s : Spec) (n : Int) : List Char :=
  padNumber s (s.zero && s.precision.isNone) (sign s (n < 0))
    (precise s n.natAbs (Nat.toDigits 10 n.natAbs))

/-- A number without a sign, in some base. -/
def unsigned (s : Spec) (base : Nat) (upper : Bool) (n : Nat) : List Char :=
  let digits := Nat.toDigits base n
  let digits := precise s n (if upper then digits.map Char.toUpper else digits)
  let digits := if base = 8 && s.alternate && digits.head? ≠ some '0' then '0' :: digits else digits
  let lead := if base = 16 && s.alternate && n ≠ 0 then ['0', if upper then 'X' else 'x'] else []
  padNumber s (s.zero && s.precision.isNone) lead digits

/-- A text, cut at the precision. -/
def text (s : Spec) (cs : List Char) : List Char :=
  pad s (match s.precision with | some p => cs.take p | none => cs)

/-- A number as the fraction of two natural numbers. -/
def fractionOf (m : Nat) (e : Int) : Nat × Nat :=
  if e ≥ 0 then (m * Nat.pow 2 e.toNat, 1) else (m, Nat.pow 2 (-e).toNat)

/-- The number of units of `10 ^ k` that is nearest to a fraction. -/
def unitsOf (num den : Nat) (k : Int) : Nat :=
  let (n, d) := Binary64.inUnits num den k
  Binary64.roundDiv n d

/-- Digits with a point before the last so many of them. -/
def withPoint (s : Spec) (places : Nat) (digits : List Char) : List Char :=
  let digits := List.replicate (places + 1 - digits.length) '0' ++ digits
  let whole := digits.take (digits.length - places)
  if places = 0 then (if s.alternate then whole ++ ['.'] else whole)
  else whole ++ '.' :: digits.drop (digits.length - places)

/-- An exponent of at least two digits. -/
def exponentText (mark : Char) (width : Nat) (e : Int) : List Char :=
  let digits := Nat.toDigits 10 e.natAbs
  [mark, if e < 0 then '-' else '+'] ++ List.replicate (width - digits.length) '0' ++ digits

/-- A fraction with so many digits after the leading one, and the exponent of that one. -/
def scientific (num den places : Nat) : List Char × Int :=
  if num = 0 then (List.replicate (places + 1) '0', 0)
  else
    let e := Binary64.leadingExponent num den
    let digits := Nat.toDigits 10 (unitsOf num den (e - places))
    if digits.length = places + 1 then (digits, e) else (digits.take (places + 1), e + 1)

/-- Digits without zeros at their end. -/
def dropZeros (cs : List Char) : List Char := (cs.reverse.dropWhile (· == '0')).reverse

/-- A number in powers of two, with hexadecimal digits. -/
def hexadecimal (s : Spec) (m : Nat) (e : Int) : List Char :=
  let shift := if m = 0 then 0 else 52 - m.log2
  let m := m * Nat.pow 2 shift
  let power : Int := if m = 0 then 0 else e - shift + 52
  let digits := match s.precision with
    | none =>
      let ds := Nat.toDigits 16 m
      dropZeros (List.replicate (14 - ds.length) '0' ++ ds)
    | some p =>
      if p ≥ 13 then
        let ds := Nat.toDigits 16 m
        List.replicate (14 - ds.length) '0' ++ ds ++ List.replicate (p - 13) '0'
      else
        let ds := Nat.toDigits 16 (Binary64.roundDiv m (Nat.pow 16 (13 - p)))
        List.replicate (p + 1 - ds.length) '0' ++ ds
  let digits := if digits.isEmpty then ['0'] else digits
  withPoint s (digits.length - 1) digits ++ exponentText 'p' 1 power

/-- A positive number or zero in one of the layouts for fractions. -/
def fraction (s : Spec) (conversion : Char) (m : Nat) (e : Int) : List Char :=
  let (num, den) := fractionOf m e
  let places := s.precision.getD 6
  match conversion with
  | 'f' => withPoint s places (Nat.toDigits 10 (unitsOf num den (-(places : Int))))
  | 'e' =>
    let (digits, power) := scientific num den places
    withPoint s places digits ++ exponentText 'e' 2 power
  | 'g' =>
    let places := max places 1
    let (digits, power) := scientific num den (places - 1)
    let kept := if s.alternate then digits else digits.take 1 ++ dropZeros (digits.drop 1)
    if -4 ≤ power && power < places then
      let ds := List.replicate (-power).toNat '0' ++ digits
      let fractional := ((places : Int) - 1 - power).toNat
      let text := withPoint s fractional ds
      if s.alternate || !text.contains '.' then text
      else
        let text := dropZeros text
        if text.getLast? = some '.' then text.dropLast else text
    else withPoint s (kept.length - 1) kept ++ exponentText 'e' 2 power
  | _ => hexadecimal s m e

/-- A number with a fraction. -/
def real (s : Spec) (conversion : Char) (x : Binary64) : List Char :=
  let upper := conversion.isUpper
  let raise (cs : List Char) : List Char := if upper then cs.map Char.toUpper else cs
  match x with
  | .undefined => pad s (raise (sign s false ++ ['n', 'a', 'n']))
  | .infinite negative => pad s (raise (sign s negative ++ ['i', 'n', 'f']))
  | .finite negative m e =>
    let body := fraction s conversion.toLower m e
    let isHex := conversion.toLower == 'a'
    let lead := sign s negative ++ if isHex then ['0', 'x'] else []
    raise (padNumber s s.zero lead body)

end CommandShell.Script.Format
