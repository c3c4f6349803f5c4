import CommandShell.Script.Format.Conversion

/-!
# Arguments that are numbers

The number at the start of an argument, and how much of the argument it takes.
-/

namespace CommandShell.Script.Format

/-- A number at the start of a text. -/
structure Reading (α : Type) where
  value : α
  /-- What follows the number. -/
  rest : List Char
  /-- The number is nearest to one that does not fit. -/
  outOfRange : Bool := false

/-- A whole number in one of three bases, of 64 bits with or without a sign. -/
def integerAt (hasSign : Bool) (cs : List Char) : Reading Int :=
  let (negative, ds) := splitSign cs
  if !ds.head?.any Char.isDigit then ⟨0, cs, false⟩
  else
    let (n, rest) := Arithmetic.readNumber ds
    if hasSign then
      let value : Int := if negative then -(n : Int) else n
      ⟨Arithmetic.clamp value, rest, !fits value⟩
    else if n ≥ Arithmetic.wordCount then ⟨(Arithmetic.wordCount : Int) - 1, rest, true⟩
    else ⟨if negative then Arithmetic.unsigned (-(n : Int)) else n, rest, false⟩

/-- Letters at the start, in either case. -/
def spells (word : String) (cs : List Char) : Bool :=
  word.toList.isPrefixOf (cs.map Char.toLower)

/-- An exponent after its mark, and what follows it. -/
def exponentAt (mark : Char) (cs : List Char) : Int × List Char :=
  match cs with
  | m :: rest =>
    if m.toLower != mark then (0, cs)
    else
      let (negative, ds) := match rest with
        | '-' :: ds => (true, ds)
        | '+' :: ds => (false, ds)
        | ds => (false, ds)
      let digits := ds.takeWhile Char.isDigit
      if digits.isEmpty then (0, cs)
      else (if negative then -(decimal digits : Int) else decimal digits, ds.drop digits.length)
  | [] => (0, cs)

/-- Digits around a point: their number, how many stand behind the point, and what follows. -/
def mantissaAt (base : Nat) (cs : List Char) : Option (Nat × Nat × List Char) :=
  let isDigit (c : Char) : Bool := (Arithmetic.digitIn? base c).isSome
  let whole := cs.takeWhile isDigit
  let rest := cs.drop whole.length
  let (part, rest) := match rest with
    | '.' :: more =>
      let part := more.takeWhile isDigit
      if whole.isEmpty && part.isEmpty then ([], rest) else (part, more.drop part.length)
    | rest => ([], rest)
  if whole.isEmpty && part.isEmpty then none
  else some ((Arithmetic.numberIn base (whole ++ part)).1, part.length, rest)

/-- A number with a fraction. -/
def realAt (cs : List Char) : Reading Binary64 :=
  let (negative, ds) := splitSign cs
  let none : Reading Binary64 := ⟨.finite false 0 Binary64.minExponent, cs, false⟩
  let isInfinite : Binary64 → Bool
    | .infinite _ => true
    | _ => false
  let result (x : Binary64) (zero : Bool) (rest : List Char) : Reading Binary64 :=
    ⟨x, rest, isInfinite x || (!zero && x.isZero)⟩
  if spells "infinity" ds then ⟨.infinite negative, ds.drop 8, false⟩
  else if spells "inf" ds then ⟨.infinite negative, ds.drop 3, false⟩
  else if spells "nan" ds then ⟨.undefined, ds.drop 3, false⟩
  else
    match if spells "0x" ds then mantissaAt 16 (ds.drop 2) else Option.none with
    | some (m, places, rest) =>
      let (e, rest) := exponentAt 'p' rest
      let power := e - 4 * (places : Int)
      let x :=
        if power ≥ 0 then Binary64.ofFraction negative (m * Nat.pow 2 (min power.toNat 4000)) 1
        else Binary64.ofFraction negative m (Nat.pow 2 (min (-power).toNat 4000))
      result x (m = 0) rest
    | Option.none =>
      match mantissaAt 10 ds with
      | some (m, places, rest) =>
        let (e, rest) := exponentAt 'e' rest
        result (Binary64.ofDecimal negative m (e - places)) (m = 0) rest
      | Option.none => none

end CommandShell.Script.Format
