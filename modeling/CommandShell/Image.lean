import CommandShell.FileSystem.Standard

/-!
# Files that can be executed

A file is a compiled tool, known by its place, or a script, whose first line names an interpreter
and perhaps one argument for it. Interpreters may be scripts themselves.
-/

namespace CommandShell

inductive Tool where
  | cat
  | sleep
  | shell
  deriving DecidableEq, Repr

/-- A tool and the words that take the place of the program's name. -/
structure Image where
  tool : Tool
  /-- The words that an interpreter gets before the arguments; none if there is no interpreter. -/
  words : List String := []
  deriving DecidableEq, Repr

namespace Image

/-- The words that a program is run with, given those that it is called with. -/
def arguments (image : Image) (called : List String) : List String :=
  if image.words.isEmpty then called else image.words ++ called.drop 1

/-- How much of a file is looked at. -/
def headSize : Nat := 256

/-- The most files that are looked at for one program. -/
def maxDepth : Nat := 6

def isBlankByte (b : UInt8) : Bool := b == 32 || b == 9

/-- The bytes up to a null byte. -/
def upToNull (bs : Bytes) : Bytes := bs.takeWhile (· != 0)

/-- The interpreter that the start of a file names, and its argument. A line that does not end
within the start has to show the end of the interpreter's name. -/
def interpreter? (content : ByteArray) : Option (Bytes × Option Bytes) :=
  let start := unpack (content.extract 0 headSize)
  let start := start ++ List.replicate (headSize - start.length) 0
  match start with
  | 0x23 :: 0x21 :: rest =>
    let isEnd (b : UInt8) : Bool := isBlankByte b || b == 0
    let line :=
      if rest.contains 10 then some (rest.takeWhile (· != 10))
      else
        let name := rest.dropLast.dropWhile isBlankByte
        if name.any isEnd then some rest.dropLast else none
    match line with
    | none => none
    | some line =>
      let line := (line.reverse.dropWhile isBlankByte).reverse.dropWhile isBlankByte
      if line.isEmpty then none
      else
        let name := line.takeWhile fun b => !isEnd b
        match line.drop name.length with
        | [] => some (name, none)
        | b :: more =>
          if b == 0 then some (name, none)
            else some (name, some (upToNull (more.dropWhile isBlankByte)))
  | _ => none

/-- The tools, known by their places. -/
def toolAt? (place : Place) : Option Tool :=
  match place with
  | ["usr", "bin", "cat"] => some .cat
  | ["usr", "bin", "sleep"] => some .sleep
  | ["usr", "bin", "sh"] => some .shell
  | _ => none

/-- What a file that is to be executed turns out to be. An interpreter without a name is the
directory itself. -/
def find (files : FileSystem) (directory : Place) : Nat → String → Except Errno Image
  | 0, _ => .error .tooManyLinks
  | depth + 1, path =>
    match files.statText directory path with
    | .error e => .error e
    | .ok (place, .file content true) =>
      match if content = FileSystem.programMark then toolAt? place else none with
      | some tool => .ok { tool }
      | none =>
        match interpreter? content with
        | none => .error .badFormat
        | some ([], _) => .error .permissionDenied
        | some (name, more) =>
          let name := Utf8.decode name
          (find files directory depth name).map fun image =>
            { image with words := image.arguments [name] ++
              (more.map Utf8.decode).toList ++ [path] }
    | .ok _ => .error .permissionDenied

end Image

end CommandShell
