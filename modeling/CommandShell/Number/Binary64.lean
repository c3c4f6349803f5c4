/-!
# Binary floating-point numbers

Finite numbers are a sign and a magnitude `significand · 2 ^ exponent`. `ofDecimal` gives the number
nearest to a decimal, a tie going to the even significand; `shortest` gives the fewest decimal
digits that lead back to the number, and of those the nearest. All of it is exact arithmetic on
natural numbers.
-/

namespace CommandShell

inductive Binary64 where
  | finite (negative : Bool) (significand : Nat) (exponent : Int)
  | infinite (negative : Bool)
  | undefined
  deriving DecidableEq, Repr

namespace Binary64

/-- The number of bits of a full significand. -/
def precision : Nat := 53

/-- The exponent of the smallest positive number. -/
def minExponent : Int := -1074

/-- The greatest exponent of a finite number. -/
def maxExponent : Int := 971

/-- The fraction `num / den · 2 ^ (-e)` as a fraction of natural numbers. -/
def scale (num den : Nat) (e : Int) : Nat × Nat :=
  if e ≥ 0 then (num, den * Nat.pow 2 e.toNat) else (num * Nat.pow 2 (-e).toNat, den)

/-- The natural number nearest to a fraction, a tie going to the even one. -/
def roundDiv (num den : Nat) : Nat :=
  let q := num / den
  let r := num % den
  if 2 * r < den then q else if den < 2 * r then q + 1 else q + q % 2

/-- The number nearest to the fraction `num / den`. -/
def ofFraction (negative : Bool) (num den : Nat) : Binary64 :=
  if num = 0 then .finite negative 0 minExponent
  else
    let guess : Int := (num.log2 : Int) - den.log2 - precision
    let (n, d) := scale num den guess
    let e := max (if Nat.pow 2 precision * d ≤ n then guess + 1 else guess) minExponent
    let (n, d) := scale num den e
    let m := roundDiv n d
    let (m, e) := if m = Nat.pow 2 precision then (Nat.pow 2 (precision - 1), e + 1) else (m, e)
    if maxExponent < e then .infinite negative else .finite negative m e

/-- The number nearest to `digits · 10 ^ exponent`. -/
def ofDecimal (negative : Bool) (digits : Nat) (exponent : Int) : Binary64 :=
  let size : Int := ((Nat.toDigits 10 digits).length : Int) + exponent
  if digits = 0 || size < -400 then .finite negative 0 minExponent
  else if 400 < size then .infinite negative
  else if exponent ≥ 0 then ofFraction negative (digits * Nat.pow 10 exponent.toNat) 1
  else ofFraction negative digits (Nat.pow 10 (-exponent).toNat)

/-- Whether `a / b ≤ c / d`. -/
def fractionLe (a b c d : Nat) : Bool := a * d ≤ c * b

/-- The decimal exponent of the leading digit of the positive fraction `num / den`. -/
def leadingExponent (num den : Nat) : Int :=
  let guess : Int := (((num.log2 : Int) - den.log2) * 30103) / 100000
  let above (k : Int) : Bool :=
    if k ≥ 0 then fractionLe (Nat.pow 10 k.toNat) 1 num den
      else fractionLe 1 (Nat.pow 10 (-k).toNat) num den
  if above (guess + 1) then guess + 1 else if above guess then guess else guess - 1

/-- The fraction `num / den` in units of `10 ^ k`. -/
def inUnits (num den : Nat) (k : Int) : Nat × Nat :=
  if k ≥ 0 then (num, den * Nat.pow 10 k.toNat) else (num * Nat.pow 10 (-k).toNat, den)

/-- The decimal of at most `count` digits that lies nearest to `m · 2 ^ e` among those that round to
it, as a number of units and the exponent of the unit. -/
def withDigits? (m : Nat) (e : Int) (count : Nat) : Option (Nat × Int) :=
  -- everything in quarters of the last binary place
  let quarter := e - 2
  let fraction (k : Nat) : Nat × Nat :=
    if quarter ≥ 0 then (k * Nat.pow 2 quarter.toNat, 1) else (k, Nat.pow 2 (-quarter).toNat)
  let low := if m = Nat.pow 2 (precision - 1) && minExponent < e then 4 * m - 1 else 4 * m - 2
  let high := 4 * m + 2
  let (vn, vd) := fraction (4 * m)
  let unit := leadingExponent vn vd - (count : Int) + 1
  let (n, d) := inUnits vn vd unit
  let (ln, ld) := let f := fraction low; inUnits f.1 f.2 unit
  let (hn, hd) := let f := fraction high; inUnits f.1 f.2 unit
  let inside (k : Nat) : Bool :=
    if m % 2 = 0 then ln ≤ k * ld && k * hd ≤ hn else ln < k * ld && k * hd < hn
  let floor := n / d
  let ceil := floor + 1
  let nearerFloor := 2 * (n % d) < d || (2 * (n % d) = d && floor % 2 = 0)
  let (near, far) := if nearerFloor then (floor, ceil) else (ceil, floor)
  if inside near then some (near, unit) else if inside far then some (far, unit) else none

/-- The fewest decimal digits that lead back to the positive number `m · 2 ^ e`. -/
def shortest (m : Nat) (e : Int) : Nat × Int :=
  ((List.range 17).findSome? fun i => withDigits? m e (i + 1)).getD (0, 0)

/-- Digits without the zeros at their end. -/
def trimZeros (ds : List Char) : List Char :=
  (ds.reverse.dropWhile (· == '0')).reverse

/-- The digits of a decimal laid out with its point after `point` of them: positionally while the
point stays near, else with an exponent of at least two digits. -/
def layout (ds : List Char) (point : Int) : String :=
  if -4 < point && point ≤ 16 then
    if point ≤ 0 then "0." ++ String.ofList (List.replicate (-point).toNat '0' ++ ds)
    else if (ds.length : Int) ≤ point then
      String.ofList (ds ++ List.replicate (point.toNat - ds.length) '0') ++ ".0"
    else String.ofList (ds.take point.toNat ++ '.' :: ds.drop point.toNat)
  else
    let mantissa := match ds with
      | d :: [] => [d]
      | d :: rest => d :: '.' :: rest
      | [] => ['0']
    let power := point - 1
    let exponent := Nat.toDigits 10 power.natAbs
    String.ofList (mantissa ++ ['e', if power < 0 then '-' else '+'] ++
      List.replicate (2 - exponent.length) '0' ++ exponent)

/-- The shortest text that leads back to the number. -/
def text : Binary64 → String
  | .undefined => "nan"
  | .infinite negative => if negative then "-inf" else "inf"
  | .finite negative m e =>
    let sign := if negative then "-" else ""
    if m = 0 then sign ++ "0.0"
    else
      let (units, unit) := shortest m e
      let ds := Nat.toDigits 10 units
      sign ++ layout (trimZeros ds) ((ds.length : Int) + unit)

/-- Whether the number is a zero of either sign. -/
def isZero : Binary64 → Bool
  | .finite _ m _ => m == 0
  | _ => false

end Binary64

end CommandShell
