/-!
# UTF-8

The decoder takes one byte at a time. Between bytes it holds what it knows of a character that has
been begun: how many bytes are missing and the range of the next one. A sequence that breaks off or
cannot go on is replaced by one U+FFFD, and the byte that does not fit is looked at afresh. The
first two bytes of a surrogate encode nothing, but are given up only when the next byte is there.
Because the state is complete after every byte, the way in which the input is cut into chunks cannot
matter (`feedOnto_append`).
-/

namespace CommandShell

/-- A sequence of bytes. -/
abbrev Bytes := List UInt8

namespace Utf8

/-- The character that stands for bytes that encode nothing. -/
def replacement : Char := Char.ofNat 0xFFFD

/-- The bytes of a character. -/
def encodeChar (c : Char) : Bytes :=
  let n := c.toNat
  if n < 0x80 then [n.toUInt8]
  else if n < 0x800 then [(0xC0 + n / 0x40).toUInt8, (0x80 + n % 0x40).toUInt8]
  else if n < 0x10000 then
    [(0xE0 + n / 0x1000).toUInt8, (0x80 + n / 0x40 % 0x40).toUInt8, (0x80 + n % 0x40).toUInt8]
  else
    [(0xF0 + n / 0x40000).toUInt8, (0x80 + n / 0x1000 % 0x40).toUInt8,
     (0x80 + n / 0x40 % 0x40).toUInt8, (0x80 + n % 0x40).toUInt8]

/-- The bytes of a text. -/
def encode (s : String) : Bytes := s.toList.flatMap encodeChar

/-- A character that has been begun. -/
inductive Pending where
  | none
  /-- `missing + 1` bytes are missing, the next one from `low` to `high`; `value` is what the bytes
  so far contribute. -/
  | need (missing value low high : Nat)
  /-- Two bytes that start a surrogate. -/
  | surrogate
  deriving DecidableEq, Repr

/-- The first byte of a character: the character, if it is complete, and what is pending. -/
def start (b : UInt8) : List Char × Pending :=
  let n := b.toNat
  if n < 0x80 then ([Char.ofNat n], .none)
  else if n < 0xC2 then ([replacement], .none)
  else if n < 0xE0 then ([], .need 0 (n - 0xC0) 0x80 0xBF)
  else if n < 0xF0 then
    ([], .need 1 (n - 0xE0) (if n = 0xE0 then 0xA0 else 0x80) (if n = 0xED then 0x9F else 0xBF))
  else if n < 0xF5 then
    ([], .need 2 (n - 0xF0) (if n = 0xF0 then 0x90 else 0x80) (if n = 0xF4 then 0x8F else 0xBF))
  else ([replacement], .none)

/-- One more byte: the characters it completes, newest last, and what is pending after it. -/
def step (p : Pending) (b : UInt8) : List Char × Pending :=
  match p with
  | .none => start b
  | .surrogate =>
    let (cs, p) := start b
    (replacement :: replacement :: cs, p)
  | .need missing value low high =>
    let n := b.toNat
    if low ≤ n && n ≤ high then
      let value := value * 0x40 + (n - 0x80)
      match missing with
      | 0 => ([Char.ofNat value], .none)
      | missing + 1 => ([], .need missing value 0x80 0xBF)
    else if high = 0x9F && 0xA0 ≤ n && n ≤ 0xBF then ([], .surrogate)
    else
      let (cs, p) := start b
      (replacement :: cs, p)

/-- What is left at the end of the input. -/
def finish : Pending → List Char
  | .none => []
  | .need .. => [replacement]
  | .surrogate => [replacement, replacement]

/-- Decoded characters, newest first, and what is pending. -/
abbrev Progress := List Char × Pending

/-- Take one byte. -/
def advance (s : Progress) (b : UInt8) : Progress :=
  let (cs, p) := step s.2 b
  (cs.reverse ++ s.1, p)

/-- Take any number of bytes. -/
def feedOnto (s : Progress) (bytes : Bytes) : Progress := bytes.foldl advance s

theorem feedOnto_append (s : Progress) (a b : Bytes) :
    feedOnto s (a ++ b) = feedOnto (feedOnto s a) b :=
  List.foldl_append

/-- The text that a chunk of bytes completes, and what is pending after it. -/
def feed (p : Pending) (bytes : Bytes) : String × Pending :=
  let (cs, p) := feedOnto ([], p) bytes
  (String.ofList cs.reverse, p)

/-- The text of a sequence of bytes; what encodes nothing is replaced. -/
def decode (bytes : Bytes) : String :=
  let (cs, p) := feedOnto ([], .none) bytes
  String.ofList (cs.reverse ++ finish p)

/-- The text whose encoding the bytes are, if there is one. -/
def decode? (bytes : Bytes) : Option String :=
  let s := decode bytes
  if encode s = bytes then some s else none

end Utf8

end CommandShell
