import CommandShell.Process
import CommandShell.Script.Octets
import CommandShell.Tool.Options

/-!
# The tool that copies

It copies files, or its input, to its output, and may number lines and make characters visible on
the way.
-/

namespace CommandShell.Tool.Cat

open Script (octets bytesOf textOf)

/-- What is done to the text. -/
structure Style where
  numbers : Bool := false
  /-- Lines without characters get no numbers. -/
  skipsBlank : Bool := false
  /-- Of blank lines after one another only the first is kept. -/
  squeezes : Bool := false
  showsEnds : Bool := false
  showsTabs : Bool := false
  showsControls : Bool := false
  deriving DecidableEq, Repr

def table : OptionTable where
  letters := "benstuvAET".toList
  names :=
    [("number-nonblank", 'b'), ("number", 'n'), ("squeeze-blank", 's'), ("show-nonprinting", 'v'),
     ("show-ends", 'E'), ("show-tabs", 'T'), ("show-all", 'A')]

def styleOf (letters : List Char) : Style :=
  let has (cs : String) : Bool := letters.any fun c => cs.toList.contains c
  { numbers := has "nb", skipsBlank := has "b", squeezes := has "s", showsEnds := has "EAe"
    showsTabs := has "TAt", showsControls := has "vAet" }

/-- Where the text stands. -/
structure Progress where
  atStart : Bool := true
  blanks : Nat := 0
  number : Nat := 1
  /-- A carriage return has been read and not been written. -/
  held : Bool := false

/-- A byte made visible. -/
def visible (style : Style) (b : UInt8) : List UInt8 :=
  let n := b.toNat
  let low (n : Nat) : List Nat :=
    if n < 32 then [94, n + 64] else if n = 127 then [94, 63] else [n]
  let codes :=
    if n = 9 then (if style.showsTabs then low 9 else [9])
    else if !style.showsControls then [n]
    else if n < 128 then low n
    else [77, 45] ++ low (n - 128)
  codes.map Nat.toUInt8

def numberText (n : Nat) : List UInt8 :=
  let digits := Nat.toDigits 10 n
  ((List.replicate (6 - digits.length) ' ' ++ digits ++ ['\t']).map fun c => c.toNat.toUInt8)

/-- A byte that is not the end of a line. -/
def putByte (style : Style) (out : ByteArray) (p : Progress) (b : UInt8) : ByteArray × Progress :=
  let (lead, number) :=
    if p.atStart && style.numbers then (numberText p.number, p.number + 1) else ([], p.number)
  ((lead ++ visible style b).foldl ByteArray.push out,
    { p with atStart := false, blanks := 0, number })

/-- The end of a line. -/
def putEnd (style : Style) (out : ByteArray) (p : Progress) : ByteArray × Progress :=
  let ended : List UInt8 := if style.showsEnds then [36, 10] else [10]
  if !p.atStart then (ended.foldl ByteArray.push out, { p with atStart := true, blanks := 0 })
  else if style.squeezes && p.blanks ≥ 1 then (out, p)
  else
    let numbered := style.numbers && !style.skipsBlank
    let lead := if numbered then numberText p.number else []
    ((lead ++ ended).foldl ByteArray.push out,
     { p with blanks := p.blanks + 1, number := if numbered then p.number + 1 else p.number })

/-- The next byte. A carriage return at the end of a line is made visible together with it. -/
def step (style : Style) (state : ByteArray × Progress) (b : UInt8) : ByteArray × Progress :=
  let (out, p) := state
  let (out, p) :=
    if !p.held then (out, p)
    else
      let p := { p with held := false }
      if b == 10 then
        let (out, p) := putByte style out p 94
        putByte style out p 77
      else putByte style out p 13
  if b == 10 then putEnd style out p
  else if b == 13 && style.showsEnds && !style.showsControls then (out, { p with held := true })
  else putByte style out p b

/-- Bytes in a style. -/
def render (style : Style) (p : Progress) (bytes : ByteArray) : ByteArray × Progress :=
  bytes.foldl (step style) (ByteArray.empty, p)

/-- How much is read at a time. -/
def blockSize : Nat := 131072

/-- The most blocks that are copied. -/
def maxBlocks : Nat := 1000000000

/-- The descriptor for files. -/
def fileDescriptor : Nat := 3

/-- A run of the tool. -/
structure Run where
  name : String
  directory : Place
  style : Style
  progress : Progress := {}
  status : Nat := 0
  /-- The input has been read from. -/
  usedInput : Bool := false

def say (text : String) (next : Unit → Process) : Process :=
  .write 2 (bytesOf text) fun _ => next ()

/-- Report what is wrong with a file. -/
def Run.complain (r : Run) (file message : String) (next : Run → Process) : Process :=
  say (r.name ++ ": " ++ file ++ ": " ++ message ++ "\n") fun _ => next { r with status := 1 }

/-- Write, or give up. -/
def Run.put (r : Run) (bytes : ByteArray) (next : Unit → Process) : Process :=
  if bytes.size = 0 then next ()
  else .write 1 bytes fun
    | .ok _ => next ()
    | .error e => say (r.name ++ ": write error: " ++ e.text ++ "\n") fun _ => Process.ended 1

/-- Copy what a descriptor gives. -/
def copy (descriptor : Nat) (file : String) : Nat → Run → (Run → Process) → Process
  | 0, _, _ => .exhausted
  | fuel + 1, r, next =>
    .read descriptor blockSize false fun
      | .error e => r.complain file e.text next
      | .ok bytes =>
        if bytes.size = 0 then next r
        else
          let (shown, progress) :=
            if r.style = {} then (bytes, r.progress) else render r.style r.progress bytes
          r.put shown fun _ => copy descriptor file fuel { r with progress } next

/-- Whether two descriptors lead to the same file, with something left to be read from the first. -/
def isSame (files : FileSystem) : Option Connection → Option Connection → Bool
  | some (.file f), some (.file g) =>
    f.place = g.place && match files.get? f.place with
      | some (.file content _) => f.offset < content.size
      | _ => false
  | _, _ => false

/-- Copy from a descriptor, unless that would copy the output to itself. -/
def copyFrom (descriptor : Nat) (file : String) (r : Run) (next : Run → Process) : Process :=
  .inspect descriptor fun source => .inspect 1 fun target => .look fun files =>
    if isSame files source target then r.complain file "input file is output file" next
    else copy descriptor file maxBlocks r next

/-- Copy files one after the other. -/
def copyAll : List String → Run → (Run → Process) → Process
  | [], r, next => next r
  | "-" :: rest, r, next => copyFrom 0 "-" { r with usedInput := true } fun r => copyAll rest r next
  | file :: rest, r, next =>
    .openFile r.directory (textOf file) Access.input fileDescriptor fun
      | .error e => r.complain (quoted file) e.text fun r => copyAll rest r next
      | .ok _ => copyFrom fileDescriptor (quoted file) r fun r =>
        .close fileDescriptor fun _ => copyAll rest r next

/-- Run the tool. -/
def run (directory : Place) (name : String) (args : List String) : Process :=
  match readArguments table args with
  | .error message => say (name ++ ": " ++ message ++ "\n" ++ hint name) fun _ => Process.ended 1
  | .ok arguments =>
    let files := if arguments.operands.isEmpty then ["-"] else arguments.operands
    .inspect 1 fun
      | none =>
        say (name ++ ": standard output: " ++ Errno.badDescriptor.text ++ "\n") fun _ =>
          Process.ended 1
      | some _ =>
        copyAll files { name, directory, style := styleOf arguments.letters } fun r =>
          let held := if r.progress.held then (ByteArray.empty.push 13) else ByteArray.empty
          r.put held fun _ =>
            .inspect 0 fun input =>
              if r.usedInput && input.isNone then
                say (name ++ ": closing standard input: " ++ Errno.badDescriptor.text ++ "\n")
                  fun _ => Process.ended 1
              else Process.ended r.status

end CommandShell.Tool.Cat
