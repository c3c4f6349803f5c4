import CommandShell.Script.Octets

/-!
# Escapes

A backslash and what follows it stand for one character. Octal numbers are bytes.
-/

namespace CommandShell.Script.Format

def isOctal (c : Char) : Bool := '0' ≤ c && c ≤ '7'

/-- The byte of up to three octal digits, and what follows them. -/
def octal (cs : List Char) : Char × List Char :=
  let ds := (cs.take 3).takeWhile isOctal
  (Char.ofNat (ds.foldl (fun n c => 8 * n + (c.toNat - '0'.toNat)) 0 % 256), cs.drop ds.length)

/-- The character of a letter after a backslash. -/
def letter? : Char → Option Char
  | 'a' => some (Char.ofNat 7)
  | 'b' => some (Char.ofNat 8)
  | 'e' => some (Char.ofNat 27)
  | 'f' => some (Char.ofNat 12)
  | 'n' => some '\n'
  | 'r' => some '\r'
  | 't' => some '\t'
  | 'v' => some (Char.ofNat 11)
  | '\\' => some '\\'
  | _ => none

/-- What a backslash before some characters stands for, and what is left of them. -/
def escape (cs : List Char) : Char × List Char :=
  match cs with
  | [] => ('\\', [])
  | c :: rest =>
    if isOctal c then octal cs
    else
      match letter? c with
      | some e => (e, rest)
      | none => ('\\', cs)

/-- A text with its escapes replaced, and whether an escape has asked to stop there. Octal numbers
may have a zero in front. -/
def unescape : Nat → List Char → List Char × Bool
  | 0, _ => ([], false)
  | fuel + 1, cs =>
    let put (c : Char) (rest : List Char) : List Char × Bool :=
      let (text, stop) := unescape fuel rest
      (c :: text, stop)
    match cs with
    | [] => ([], false)
    | '\\' :: 'c' :: _ => ([], true)
    | '\\' :: rest =>
      let rest := match rest with
        | '0' :: d :: more => if isOctal d then d :: more else rest
        | rest => rest
      let (c, rest) := escape rest
      put c rest
    | c :: rest => put c rest

/-- A whole text with its escapes replaced. -/
def unescapeText (text : String) : List Char × Bool :=
  unescape (text.length + 1) text.toList

/-- Arguments with blanks between them, up to one that asks to stop. -/
def echoArguments : List String → List Char × Bool
  | [] => ([], false)
  | arg :: rest =>
    match unescapeText arg, rest with
    | (text, true), _ => (text, true)
    | (text, false), [] => (text, false)
    | (text, false), rest =>
      let (more, stop) := echoArguments rest
      (text ++ ' ' :: more, stop)

/-- What `echo` writes for its arguments. -/
def echo (args : List String) : String :=
  let (newline, args) := match args with
    | "-n" :: rest => (false, rest)
    | args => (true, args)
  let (text, stop) := echoArguments args
  String.ofList (if newline && !stop then text ++ ['\n'] else text)

end CommandShell.Script.Format
