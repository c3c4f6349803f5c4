import CommandShell.Script.Utility.Basic
import CommandShell.Text.Order

/-!
# Utilities for variables

They show variables, change them and their properties, and read values for them.
-/

namespace CommandShell.Script.Utility

/-- Show variables in order, each after a word. -/
def showVariables (word : String) (vs : List Variable) : Act Unit := do
  let line (v : Variable) : String :=
    v.name ++ match v.value with
      | some value => "=" ++ singleQuoted value
      | none => ""
  let lead := if word = "" then "" else word ++ " "
  let ordered := vs.mergeSort fun a b => Text.before a.name.toList b.name.toList
  for v in ordered do
    Act.put (lead ++ line v ++ "\n")

/-- Give variables a property, and perhaps values. -/
def grant (word : String) (granted : Act.Grant) (holds : Variable → Bool) (args : List String) :
    Act Nat := do
  let shows := args.head?.any fun arg => arg.startsWith "-p"
  let names ← if shows then pure [] else Prod.snd <$> options "p" args
  if !names.isEmpty then
    for text in names do
      let (name, value) := Act.splitAssignment text
      match value, (← Act.get).lookUp? name with
      | none, some v =>
        Act.modify fun s => s.putVariable
          { v with
            exported := v.exported || granted.exported, readOnly := v.readOnly || granted.readOnly }
      | _, _ => Act.setVariable name value granted
  else showVariables word ((← Act.get).bindings.filter holds)
  return 0

def exportNames (args : List String) : Act Nat :=
  grant "export" { exported := true } (fun v => v.exported) args

def readOnly (args : List String) : Act Nat :=
  grant "readonly" { readOnly := true } (fun v => v.readOnly) args

/-- Let variables have their values until the function ends. -/
def localNames (args : List String) : Act Nat := do
  if (← Act.get).kept.isEmpty then Act.fail "not in a function"
  for text in args do
    Act.assignForNow text false
  return 0

def unset (args : List String) : Act Nat := do
  let (given, names) ← options "vf" args
  let functions := (given.getLast?.map fun g => g.letter) = some 'f'
  for name in names do
    if functions then
      Act.modify fun s => { s with functions := s.functions.filter fun f => f.1 ≠ name }
    else Act.setVariable name none
  return 0

def shift (args : List String) : Act Nat := do
  let n ← match args with
    | [] => pure 1
    | arg :: _ => Act.count arg
  if n > (← Act.get).parameters.length then Act.fail "can't shift that many"
  Act.modify fun s =>
    { s with parameters := s.parameters.drop n, optionIndex := 1, optionOffset := none }
  return 0

/-- Take parameters. -/
def setParameters (parameters : List String) : Act Unit := Act.modify fun s =>
  { s with parameters, optionIndex := 1, optionOffset := none }

/-- Switch on or off what a letter stands for. -/
def switchLetter (c : Char) (on : Bool) : Act Unit := do
  match State.switchTable.find? fun t => t.2 = some c with
  | some (name, _) => Act.modify fun s =>
    let s := s.turn name on
    if on && name = "vi" then s.turn "emacs" false
    else if on && name = "emacs" then s.turn "vi" false
    else s
  | none => Act.fail ("Illegal option -" ++ String.ofList [c])

/-- Switch on or off what has a name, or show all that have one. -/
def switchName (name : Option String) (on : Bool) : Act Unit := do
  match name with
  | some name =>
    if State.switchTable.any fun t => t.1 = name then Act.modify fun s => s.turn name on
    else Act.fail ("Illegal option -o " ++ name)
  | none =>
    let s ← Act.get
    if on then Act.put "Current option settings\n"
    for (name, _) in State.switchTable do
      let padded := name ++ String.ofList (List.replicate (16 - name.length) ' ')
      Act.put (if on then padded ++ (if s.isOn name then "on\n" else "off\n")
        else "set " ++ (if s.isOn name then "-" else "+") ++ "o " ++ name ++ "\n")

/-- Switch on or off what the letters of a word stand for; one of them takes a name from the words
that follow. -/
def switchLetters (on : Bool) : List Char → List String → Act (List String)
  | [], rest => return rest
  | 'o' :: cs, rest => do
    switchName rest.head? on
    switchLetters on cs (rest.drop 1)
  | c :: cs, rest => do
    switchLetter c on
    switchLetters on cs rest

/-- The switches at the start of words. -/
def switches : Nat → List String → Act (Option (List String))
  | 0, _ => return none
  | fuel + 1, words =>
    match words with
    | [] => return none
    | word :: rest =>
      match word.toList with
      | ['-'] => do
        Act.modify fun s => (s.turn "xtrace" false).turn "verbose" false
        return if rest.isEmpty then none else some rest
      | ['-', '-'] => return some rest
      | '-' :: cs => do
        let rest ← switchLetters true cs rest
        switches fuel rest
      | '+' :: cs => do
        let rest ← switchLetters false cs rest
        switches fuel rest
      | _ => return some words

/-- There is no terminal to control jobs from. -/
def checkMonitor : Act Unit := do
  let s ← Act.get
  if s.isOn "monitor" && !s.isChild then
    Act.warn "can't access tty; job control turned off"
    Act.modify fun s => s.turn "monitor" false

def set (args : List String) : Act Nat := do
  if args.isEmpty then
    showVariables "" ((← Act.get).bindings.filter fun v => v.value.isSome)
  else
    let found ← switches (args.length + 1) args
    checkMonitor
    match found with
    | some parameters => setParameters parameters
    | none => pure ()
  return 0

/-- The options that a script itself takes: what was found, and where reading goes on. -/
structure Scan where
  letter : String := "?"
  argument : Option String := none
  isDone : Bool := false
  index : Nat
  offset : Option Nat := none
  message : Option String := none

/-- The next option among arguments. -/
def scan (wanted : List Char) (args : List String) (index : Nat) (offset : Option Nat) : Scan :=
  let quiet := wanted.head? = some ':'
  let current : Option (List Char) :=
    if index ≤ 1 then none
    else offset.bind fun o => (args[index - 2]?).bind fun a =>
      if a.length < o then none else some (a.toList.drop o)
  -- What is left of the word that options are read from, and the index of the next one.
  let opened : Except Nat (List Char × Nat) :=
    match current with
    | some (c :: cs) => .ok (c :: cs, index)
    | _ =>
      match (args[index - 1]?).map String.toList with
      | some ['-', '-'] => .error (index + 1)
      | some ('-' :: c :: cs) => .ok (c :: cs, index + 1)
      | _ => .error index
  match opened with
  | .error index => { isDone := true, index }
  | .ok ([], index) => { isDone := true, index }
  | .ok (c :: cs, index) =>
    let letter := String.ofList [c]
    let offsetOf (cs : List Char) : Option Nat :=
      some (((args[index - 2]?).map String.length).getD 0 - cs.length)
    match optionKind? wanted c with
    | none =>
      { index, offset := offsetOf cs
        argument := if quiet then some letter else none
        message := if quiet then none else some ("Illegal option -" ++ letter ++ "\n") }
    | some false => { letter, argument := some "", index, offset := offsetOf cs }
    | some true =>
      if !cs.isEmpty then { letter, argument := some (String.ofList cs), index }
      else
        match args[index - 1]? with
        | some argument => { letter, argument := some argument, index := index + 1 }
        | none =>
          if quiet then { letter := ":", argument := some letter, index }
          else { index, message := some ("No arg for -" ++ letter ++ " option\n") }

def getopts (args : List String) : Act Nat := do
  match args with
  | wanted :: name :: rest => do
    let s ← Act.get
    let from_ := if rest.isEmpty then s.parameters else rest
    let (index, offset) :=
      if s.optionIndex > from_.length + 1 then (1, none) else (s.optionIndex, s.optionOffset)
    let found := scan wanted.toList from_ index offset
    match found.message with
    | some message => Act.say message
    | none => pure ()
    Act.modify fun s => { s with optionIndex := 1, optionOffset := none }
    if !found.isDone then Act.setVariable "OPTARG" found.argument
    Act.assign "OPTIND" (some (toString found.index)) { quiet := true }
    Act.setVariable name (some found.letter)
    Act.modify fun s => { s with optionIndex := found.index, optionOffset := found.offset }
    return if found.isDone then 1 else 0
  | _ => Act.fail "Usage: getopts optstring var [arg...]"

/-- The characters of a line, those behind a backslash apart from the others, and whether the line
goes on. -/
def cutEscapes (raw : Bool) : List Char → List Char → List Segment × Bool
  | [], run => ([.fields (markAll false (String.ofList run.reverse))], false)
  | '\\' :: rest, run =>
    if raw then cutEscapes raw rest ('\\' :: run)
    else
      let before : Segment := .fields (markAll false (String.ofList run.reverse))
      match rest with
      | [] => ([before], true)
      | c :: rest =>
        let (segments, continues) := cutEscapes raw rest []
        (before :: .plain [(c, true)] :: segments, continues)
  | c :: rest, run => cutEscapes raw rest (c :: run)

/-- How much is read at a time. -/
def readSize : Nat := 65536

/-- Read a line, over those that a backslash joins; whether its end was found comes with it. -/
def readLine (raw : Bool) : Nat → List Char → Act (List Segment × Bool)
  | 0, _ => return ([], false)
  | fuel + 1, before => do
    match ← Act.read 0 readSize true with
    | .error _ => return ((cutEscapes raw before []).1, false)
    | .ok bytes =>
      let cs := before ++ (octets bytes).toList.filter (· != Char.ofNat 0)
      if bytes.size = 0 then return ((cutEscapes raw cs []).1, false)
      else if bytes.data.back? != some 10 then readLine raw fuel cs
      else
        let (segments, continues) := cutEscapes raw cs.dropLast []
        if continues then
          let (more, ended) ← readLine raw fuel []
          return (segments ++ more, ended)
        else return (segments, true)

/-- The most pieces that a line is read in. -/
def maxReads : Nat := 1000000

def read (args : List String) : Act Nat := do
  let (given, names) ← options "p:r" args
  if names.isEmpty then Act.fail "arg count"
  let (segments, ended) ← readLine (has given 'r') maxReads []
  let fields := fieldsOf (← Act.get).separators.toList (some names.length) segments
  let values := fields.map Glyph.text
  for (name, i) in names.zipIdx do
    Act.setVariable name (some (values[i]?.getD ""))
  return if ended then 0 else 1

/-- The place of a name among tables of entries that are chained. -/
def bucket (name : String) (size : Nat) : Nat :=
  let first := (name.toList.head?.map Char.toNat).getD 0
  (name.toList.foldl (fun n c => n + c.toNat) (16 * first)) % size

def aliasLine (a : String × String) : String := a.1 ++ "=" ++ singleQuoted a.2 ++ "\n"

def nameTexts (args : List String) : Act Nat := do
  let s ← Act.get
  if args.isEmpty then
    let ordered := s.aliases.mergeSort fun a b => bucket a.1 39 ≤ bucket b.1 39
    for a in ordered do
      Act.put (aliasLine a)
    return 0
  let mut status := 0
  for arg in args do
    match arg.toList with
    | c :: cs =>
      let name := c :: cs.takeWhile (· != '=')
      match arg.toList.drop name.length with
      | _ :: value =>
        let name := String.ofList name
        Act.modify fun s =>
          { s with aliases := s.aliases.filter (fun a => a.1 ≠ name) ++
            [(name, String.ofList value)] }
      | [] =>
        match (← Act.get).aliases.find? fun a => a.1 = arg with
        | some a => Act.put (aliasLine a)
        | none =>
          Act.say ("alias: " ++ arg ++ " not found\n")
          status := 1
    | [] =>
      Act.say "alias:  not found\n"
      status := 1
  return status

def unalias (args : List String) : Act Nat := do
  if args.head?.any fun arg => arg.startsWith "-a" then
    Act.modify fun s => { s with aliases := [] }
    return 0
  let (_, names) ← options "a" args
  let mut status := 0
  for name in names do
    if (← Act.get).aliases.any fun a => a.1 = name then
      Act.modify fun s => { s with aliases := s.aliases.filter fun a => a.1 ≠ name }
    else
      Act.say ("unalias: " ++ name ++ " not found\n")
      status := 1
  return status

end CommandShell.Script.Utility
