import CommandShell.Script.Format.Number

/-!
# Formats

A format is applied to arguments, again and again until they are used up. Arguments that are missing
are empty, and those that should be numbers and are not are reported.
-/

namespace CommandShell.Script.Format

/-- What a format has led to so far. -/
structure Printing where
  /-- What has been written, last first. -/
  out : List (List Char) := []
  /-- The arguments that are left. -/
  args : List String
  /-- What was wrong with arguments, last first. -/
  warnings : List String := []

/-- How the application of a format ends. -/
inductive Ending where
  | done
  /-- An escape has asked to stop. -/
  | stopped
  | failed (message : String)
  deriving DecidableEq, Repr

namespace Printing

def put (p : Printing) (cs : List Char) : Printing := { p with out := cs :: p.out }

/-- The next argument. -/
def next? (p : Printing) : Option String × Printing :=
  (p.args.head?, { p with args := p.args.drop 1 })

/-- Report what is wrong with an argument. -/
def check {α : Type} (p : Printing) (arg : String) (r : Reading α) : Printing :=
  let warn (message : String) : Printing :=
    { p with warnings := (arg ++ ": " ++ message) :: p.warnings }
  if !r.rest.isEmpty then
    if r.rest.length = arg.length then warn "expected numeric value"
      else warn "not completely converted"
  else if r.outOfRange then warn "Numerical result out of range"
  else p

/-- The character behind a quote at the start of an argument. -/
def quoted? (arg : String) : Option Nat :=
  match arg.toList with
  | q :: rest => if q == '"' || q == '\'' then some ((rest.head?.map Char.toNat).getD 0) else none
  | [] => none

def integer (p : Printing) (hasSign : Bool) : Int × Printing :=
  match p.next? with
  | (none, p) => (0, p)
  | (some arg, p) =>
    match quoted? arg with
    | some n => (n, p)
    | none =>
      let r := integerAt hasSign arg.toList
      (r.value, p.check arg r)

def real (p : Printing) : Binary64 × Printing :=
  match p.next? with
  | (none, p) => (.finite false 0 Binary64.minExponent, p)
  | (some arg, p) =>
    match quoted? arg with
    | some n => (.ofFraction false n 1, p)
    | none =>
      let r := realAt arg.toList
      (r.value, p.check arg r)

end Printing

def readFlags : Spec → List Char → Spec × List Char
  | s, '-' :: rest => readFlags { s with left := true } rest
  | s, '0' :: rest => readFlags { s with zero := true } rest
  | s, '+' :: rest => readFlags { s with plus := true } rest
  | s, ' ' :: rest => readFlags { s with blank := true } rest
  | s, '#' :: rest => readFlags { s with alternate := true } rest
  | s, cs => (s, cs)

def isCount (c : Char) : Bool := c.isDigit || c == '*'

/-- A width or a precision from an argument; it has 32 bits. -/
def Printing.count (p : Printing) : Int × Printing :=
  let (n, p) := p.integer true
  (n.bmod 0x100000000, p)

/-- The width of a conversion. -/
def readWidth (s : Spec) (p : Printing) (cs : List Char) : Spec × Printing × List Char :=
  match cs with
  | '*' :: rest =>
    let (n, p) := p.count
    ({ s with width := n.natAbs, left := s.left || n < 0 }, p, rest)
  | cs =>
    let ds := cs.takeWhile isCount
    ({ s with width := decimal (ds.takeWhile Char.isDigit) }, p, cs.drop ds.length)

/-- The precision of a conversion. -/
def readPrecision (s : Spec) (p : Printing) (cs : List Char) : Spec × Printing × List Char :=
  match cs with
  | '.' :: '*' :: rest =>
    let (n, p) := p.count
    ({ s with precision := if n < 0 then none else some n.natAbs }, p, rest)
  | '.' :: rest =>
    let ds := rest.takeWhile isCount
    ({ s with precision := some (decimal (ds.takeWhile Char.isDigit)) }, p, rest.drop ds.length)
  | cs => (s, p, cs)

/-- A conversion of the next argument; none if there is no such conversion. -/
def convert (s : Spec) (conversion : Char) (p : Printing) : Option (Printing × Bool) :=
  let number (hasSign : Bool) (lay : Int → List Char) : Option (Printing × Bool) :=
    let (n, p) := p.integer hasSign
    some (p.put (lay n), false)
  match conversion with
  | 'b' =>
    let (arg, p) := p.next?
    let (cs, stop) := unescapeText (arg.getD "")
    some (p.put (text s cs), stop)
  | 'c' =>
    let (arg, p) := p.next?
    some (p.put (pad s [((arg.bind fun a => a.toList.head?).getD (Char.ofNat 0))]), false)
  | 's' =>
    let (arg, p) := p.next?
    some (p.put (text s (arg.getD "").toList), false)
  | 'd' | 'i' => number true (signed s)
  | 'o' => number false fun n => unsigned s 8 false n.toNat
  | 'u' => number false fun n => unsigned s 10 false n.toNat
  | 'x' => number false fun n => unsigned s 16 false n.toNat
  | 'X' => number false fun n => unsigned s 16 true n.toNat
  | 'a' | 'A' | 'e' | 'E' | 'f' | 'F' | 'g' | 'G' =>
    let (x, p) := p.real
    some (p.put (real s conversion x), false)
  | _ => none

/-- Apply a format once. -/
def apply : Nat → List Char → Printing → Printing × Ending
  | 0, _, p => (p, .done)
  | fuel + 1, cs, p =>
    match cs with
    | [] => (p, .done)
    | '\\' :: rest =>
      let (c, rest) := escape rest
      apply fuel rest (p.put [c])
    | '%' :: '%' :: rest => apply fuel rest (p.put ['%'])
    | '%' :: spec =>
      let (s, rest) := readFlags {} spec
      let (s, p, rest) := readWidth s p rest
      let (s, p, rest) := readPrecision s p rest
      match rest with
      | [] => (p, .failed "missing format character")
      | c :: rest =>
        match convert (if s.isTooLarge then {} else s) c p with
        | none =>
          (p, .failed ("%" ++ String.ofList (spec.take (spec.length - rest.length)) ++
            ": invalid directive"))
        | some (q, stops) =>
          if s.isTooLarge then ({ q with out := p.out }, .failed "xvsnprintf failed")
          else if stops then (q, .stopped)
          else apply fuel rest q
    | c :: rest =>
      let plain := c :: rest.takeWhile fun c => c != '%' && c != '\\'
      apply fuel (cs.drop plain.length) (p.put plain)

/-- Apply a format until the arguments are used up. -/
def applyAll (format : List Char) : Nat → Printing → Printing × Ending
  | 0, p => (p, .done)
  | fuel + 1, p =>
    match apply (format.length + 1) format p with
    | (q, .done) =>
      if q.args.isEmpty || q.args.length = p.args.length then (q, .done) else applyAll format fuel q
    | ended => ended

/-- What `printf` writes and reports, and how it ends. -/
def print (format : String) (args : List String) : String × List String × Ending :=
  let (p, ending) := applyAll format.toList (args.length + 1) { args }
  (String.ofList p.out.reverse.flatten, p.warnings.reverse, ending)

end CommandShell.Script.Format
