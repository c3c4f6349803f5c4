import CommandShell.Image
import CommandShell.Script.Parser
import CommandShell.Script.Redirects
import CommandShell.Script.Search
import CommandShell.Tool.Cat
import CommandShell.Tool.Sleep

/-!
# Running scripts

Commands are run by one recursion, whose fuel goes down with every call; a script that has none left
is cut off. After each command the script looks for signals that have come, so that every command
asks the system for something.
-/

namespace CommandShell.Script

/-- How a command is run. -/
structure Calling where
  /-- The status is tested, so that the command may fail. -/
  tested : Bool := false
  /-- The process ends with the command. -/
  last : Bool := false

/-- A command of whatever name, ready to be run. -/
structure Resolved where
  args : List String := []
  /-- The first utility that was found is part of the language; none if there is no utility. -/
  special : Option Bool := none
  /-- Assignments last only as long as the command. -/
  isScoped : Bool := false
  functions : Bool := true
  path : Option String := none
  isExec : Bool := false
  /-- The words before the command, which only say how to look for it. -/
  passed : List String := []

/-- A text without the ends of lines at its end. -/
def dropNewlines (text : String) : String :=
  if text.endsWith "\n" then String.ofList (text.toList.reverse.dropWhile (· == '\n')).reverse
    else text

/-- A child forgets about traps. In the background it also does not mind interrupts, and reads
nothing. -/
def becomeChild (background first : Bool) : Act Unit := do
  for (signal, action) in (← Act.get).traps do
    if action ≠ "" && signal ≠ 0 then Act.dispose signal .default
  Act.modify fun s =>
    { s with
      traps := s.traps.filter fun t => t.2 = "", redirected := [], arrived := [], isChild := true }
  if background then
    Act.dispose Signal.interrupt .ignored
    Act.dispose Signal.quit .ignored
    Act.modify fun s => { s with immune := [Signal.interrupt, Signal.quit] ++ s.immune }
    if first then
      let _ ← Act.openFile "/dev/null" .input 0

/-- Put things in order after the normal flow of commands was left. -/
def resetAfter (flow : Flow) : Act Unit := do
  Act.modify fun s =>
    let status :=
      if flow = .left || s.skip = .functionAsIs then s.statusBefore.getD s.status else s.status
    { s with
      status, statusBefore := none, skip := .none, loops := 0, tracing := false, utility := none }
  unwind 0 0

/-- Whether a loop goes on after a command, and whether the loop before it does. -/
def leaveLoop : Act Skip := do
  let s ← Act.get
  match s.skip with
  | .loop | .turn =>
    if s.skipCount ≤ 1 then
      Act.set { s with skip := .none, skipCount := 0 }
      return s.skip
    else
      Act.set { s with skipCount := s.skipCount - 1 }
      return .loop
  | skip => return skip

/-- The trace of a command is written where errors went before it was redirected. -/
def traceDescriptor (s : State) (redirects : Nat) : Nat :=
  if s.redirected.length > redirects then
    match s.redirected with
    | frame :: _ => ((frame.lookup 2).bind id).getD 2
    | [] => 2
  else 2

/-- The utilities that run no other commands. -/
def plainUtility? (name : String) : Option (List String → Act Nat) :=
  match name with
  | ":" | "true" => some fun _ => return 0
  | "false" => some fun _ => return 1
  | "echo" => some Utility.echo
  | "printf" => some Utility.printf
  | "[" => some Utility.bracket
  | "test" => some Utility.test
  | "read" => some Utility.read
  | "cd" | "chdir" => some Utility.cd
  | "pwd" => some Utility.pwd
  | "umask" => some Utility.umask
  | "export" => some Utility.exportNames
  | "readonly" => some Utility.readOnly
  | "local" => some Utility.localNames
  | "unset" => some Utility.unset
  | "set" => some Utility.set
  | "shift" => some Utility.shift
  | "getopts" => some Utility.getopts
  | "alias" => some Utility.nameTexts
  | "unalias" => some Utility.unalias
  | "trap" => some Utility.trap
  | "kill" => some Utility.kill
  | "wait" => some Utility.wait
  | "jobs" => some Utility.jobs
  | "fg" | "bg" => some Utility.moveJob
  | "type" => some Utility.type
  | "command" => some Utility.command
  | "hash" => some Utility.hash
  | "times" => some Utility.times
  | "ulimit" => some Utility.ulimit
  | _ => none

/-- Leave loops, or this turn of them. -/
def leaveLoops (skip : Skip) (args : List String) : Act Nat := do
  let n ← match args with
    | [] => pure 1
    | arg :: _ => do
      let n ← Act.count arg
      if n = 0 then Act.fail ("Illegal number: " ++ arg)
      pure n
  Act.modify fun s => if s.loops = 0 then s else { s with skip, skipCount := min n s.loops }
  return 0

/-- Leave the script. -/
def leaveScript (args : List String) : Act Nat := do
  match args with
  | [] => pure ()
  | arg :: _ =>
    let n ← Act.count arg
    Act.modify fun s => { s with statusBefore := some n }
  Act.leave .left

/-- Leave a function. -/
def leaveFunction (args : List String) : Act Nat := do
  match args with
  | [] =>
    Act.modify fun s => { s with skip := .functionAsIs }
    return (← Act.get).status
  | arg :: _ =>
    let n ← Act.count arg
    Act.modify fun s => { s with skip := .function }
    return n

/-- The file that a name stands for when its commands are to be run here. -/
def findSource (name : String) : Act String := do
  if name.toList.contains '/' then return name
  let s ← Act.get
  let files ← Act.look
  let isFile (path : String) : Bool :=
    match files.statText s.directory (textOf path) with
    | .ok (_, .file _ _) => true
    | _ => false
  match (pathCandidates s.searchPath name).find? isFile with
  | some path => return path
  | none => Act.fail (name ++ ": not found")

/-- How much of a script is read at a time. -/
def blockSize : Nat := 8192

/-- The status of a program that could not be executed. -/
def refusalStatus : Errno → Nat
  | .notFound | .notDirectory | .tooManyLinks | .nameTooLong => 127
  | _ => 126

/-- The program that interprets files without a mark. -/
def shellPath : String := "/bin/sh"

/-- How many functions may be running. -/
def maxCalls : Nat := 1000

/-- How many utilities may be running; with more of them the memory of a script is used up. -/
def maxDepth : Nat := 6000

/-- The first of some files that can be executed, and the words that it is run with. -/
def loadFirst (files : FileSystem) (directory : Place) (args : List String) :
    Errno → List String → Except Errno (Image × List String)
  | e, [] => .error e
  | e, path :: rest =>
    let attempt (path : String) := Image.find files directory Image.maxDepth (textOf path)
    let goOn (e' : Errno) : Except Errno (Image × List String) :=
      loadFirst files directory args (if e' = .notFound || e' = .notDirectory then e else e') rest
    let words (image : Image) (args : List String) : List String :=
      { image with words := image.words.map octetsOf }.arguments args
    match attempt path with
    | .ok image => .ok (image, words image args)
    | .error .badFormat =>
      match attempt shellPath with
      | .ok image => .ok (image, words image (shellPath :: path :: args.drop 1))
      | .error e' => goOn e'
    | .error e' => goOn e'

/-- The directory as a script is told, if that is where it is. -/
def startDirectory (files : FileSystem) (directory : Place) (told : Option String) : String :=
  match told with
  | none => placeText directory
  | some told =>
    match files.statText directory (textOf told) with
    | .ok (place, _) =>
      if told.startsWith "/" && place = directory then told else placeText directory
    | .error _ => placeText directory

/-- The state of a script before its arguments are looked at. -/
def startState (files : FileSystem) (directory : Place) (environment : List (String × String))
    (shell : String) (pid parent : Nat) (ignored : List Nat) : State :=
  let fixed (name value : String) : Variable := { name, value := some value, fixed := true }
  let s : State :=
    { name := shell, directory, pid, parent, immune := ignored
      bindings :=
        [fixed "PATH" standardPath, fixed "PS1" "# ", fixed "PS2" "> ", fixed "PS4" "+ ",
          fixed "IFS" "",
         fixed "OPTIND" "1"] }
  let set (s : State) (name : String) (value : String) (exported : Bool) : State :=
    match s.lookUp? name with
    | some v => s.putVariable { v with value := some value, exported := v.exported || exported }
    | none => s.putVariable { name, value := some value, exported }
  let s := environment.foldl (fun s v => if isName v.1 then set s v.1 v.2 true else s) s
  let s := set (set (set s "IFS" defaultSeparators false) "OPTIND" "1" false) "PPID"
    (toString parent) false
  let told := startDirectory files directory (s.value? "PWD")
  { set s "PWD" told true with told }

/-- What the arguments of a shell ask for. -/
structure Invocation where
  /-- Commands are given as an argument. -/
  takesText : Bool := false
  rest : List String := []

/-- The switches that the arguments of a shell begin with. -/
def readInvocation : Nat → Invocation → List String → Act Invocation
  | 0, v, args => return { v with rest := args }
  | fuel + 1, v, args =>
    match args with
    | [] => return { v with rest := [] }
    | word :: rest =>
      match word.toList with
      | ['-'] | ['-', '-'] => return { v with rest }
      | sign :: cs =>
        if sign = '-' || sign = '+' then do
          let takesText := v.takesText || cs.contains 'c'
          let rest ← Utility.switchLetters (sign = '-') (cs.filter fun c =>
              c != 'c' && c != 'l') rest
          readInvocation fuel { v with takesText } rest
        else return { v with rest := args }
      | [] => return { v with rest := args }

/-- The lines of an input that were read for a command or an error. -/
def linesRead (input : List Char) (found : Except SyntaxError (Option Command × Reader)) :
    List Char :=
  let unread := match found with
    | .ok (_, r) => r.input
    | .error e => (e.unread.reverse.takeWhile (· != Read.aliasEnd)).reverse
  let isRead := input.take (input.length - unread.length)
  match isRead.getLast? with
  | none | some '\n' => isRead
  | some _ => isRead ++ unread.takeWhile (· != '\n') ++ (unread.find? (· == '\n')).toList

mutual

/-- What a command writes, without the ends of lines at its end. -/
def substitute : Nat → Command → Act String
  | 0, _ => Act.exhaust
  | _ + 1, .nothing => return ""
  | fuel + 1, body => do
    let _ ← Act.flush
    let reader ← Act.reserve
    let writer ← Act.reserve
    Act.pipe reader writer
    let (place, s) := (← Act.get).addJob {}
    Act.set s
    let pid ← inChild fuel false false body { last := true } do
      Act.close reader
      let _ ← Act.duplicate writer 1
      Act.close writer
    Act.modify fun s => s.setJob place (some { processes := [pid] })
    Act.giveBack writer
    let bytes ← (fun s next _ => .drain reader ByteArray.empty fun bytes =>
        next bytes s : Act ByteArray)
    Act.giveBack reader
    let status ← Act.awaitForeground place
    Act.modify fun s => { s with substituted := status }
    return dropNewlines (String.ofList ((octets bytes).toList.filter (· != Char.ofNat 0)))

/-- Run a command in a process of its own, after some preparation. The process knows nothing of what
its parent has started. -/
def inChild : Nat → Bool → Bool → Command → Calling → Act Unit → Act Nat
  | 0, _, _, _, _, _ => Act.exhaust
  | fuel + 1, background, first, body, calling, prepare =>
    Act.fork do
      match ← Act.attempt (do
          becomeChild background first
          Act.modify fun s => { s with jobs := [] }
          prepare
          let _ ← exec fuel calling body) with
      | .ok _ => pure ()
      | .error flow => resetAfter flow
      endScript fuel

/-- Run what is to be run at the end of a script. -/
def endScript : Nat → Act Unit
  | 0 => Act.exhaust
  | fuel + 1 => do
    let s ← Act.get
    match s.trap? 0 with
    | none => pure ()
    | some text =>
      Act.set { s with
        traps := s.traps.filter (fun t => t.1 ≠ 0), statusBefore := some s.status, skip := .none }
      match ← Act.attempt (runText fuel {} text) with
      | .ok _ => resetAfter .left
      | .error flow => resetAfter flow
    let _ ← Act.flush

/-- Run the traps of the signals that have come. -/
def runTraps : Nat → Act Unit
  | 0 => Act.exhaust
  | fuel + 1 => do
    Act.collect
    let s ← Act.get
    if s.arrived.isEmpty then return
    let status := s.statusBefore.getD s.status
    Act.set { s with statusBefore := some status, arrived := [] }
    runEachTrap fuel status (s.arrived.mergeSort (· ≤ ·))
    Act.modify fun t => { t with statusBefore := s.statusBefore }

/-- Run the traps of some signals. -/
def runEachTrap : Nat → Nat → List Nat → Act Unit
  | 0, _, _ => Act.exhaust
  | _ + 1, _, [] => return
  | fuel + 1, status, signal :: rest => do
    let s ← Act.get
    if s.skip ≠ .none then Act.set { s with arrived := signal :: rest ++ s.arrived }
    else
      match s.trap? signal with
      | none => runEachTrap fuel status rest
      | some text => do
        let _ ← runText fuel {} text
        Act.modify fun s => if s.skip = .function then s else { s with status }
        runEachTrap fuel status rest

/-- What follows a command: traps are run, and the script may end. -/
def afterCommand : Nat → Calling → Bool → Nat → Act Nat
  | 0, _, _, _ => Act.exhaust
  | fuel + 1, calling, checked, status => do
    runTraps fuel
    let s ← Act.get
    if checked && status ≠ 0 && s.isOn "errexit" then Act.leave .ended
    if calling.last then Act.leave .ended
    return s.status

/-- Run a command; the result is its status. -/
def exec : Nat → Calling → Command → Act Nat
  | 0, _, _ => Act.exhaust
  | fuel + 1, calling, command => do
    let inner : Calling := { tested := calling.tested }
    let settle (checked : Bool) (status : Nat) : Act Nat := do
      Act.setStatus status
      afterCommand fuel calling (checked && !calling.tested) status
    if (← Act.get).isOn "noexec" then afterCommand fuel calling false 0
    else
      match command with
      | .nothing => afterCommand fuel calling false 0
      | .simple line assignments words redirects => do
        Act.modify fun s => { s with line, substituted := 0 }
        settle true (← execSimple fuel calling assignments words redirects)
      | .negated command => do
        let status ← exec fuel { tested := true } command
        let isLeft := (← Act.get).skip ≠ .none
        settle false (if isLeft then status else if status = 0 then 1 else 0)
      | .redirected line body redirects => do
        Act.modify fun s => { s with line }
        let outcomes ← expandRedirects (substitute fuel) fuel redirects
        let status ← if ← redirectForNow (substitute fuel) fuel outcomes then exec fuel inner body
          else pure 2
        restoreRedirects false
        settle false status
      | .subshell line body redirects => do
        Act.modify fun s => { s with line }
        let outcomes ← expandRedirects (substitute fuel) fuel redirects
        let _ ← Act.flush
        if calling.last && !(← Act.get).hasTraps then
          becomeChild false false
          redirectAll (substitute fuel) fuel false outcomes
          exec fuel calling body
        else
          settle true (← Act.foreground (inChild fuel false false body { calling with last := true }
            (redirectAll (substitute fuel) fuel false outcomes)))
      | .background line body redirects => do
        Act.modify fun s => { s with line }
        let outcomes ← expandRedirects (substitute fuel) fuel redirects
        let _ ← Act.flush
        let pid ← inChild fuel true true body { last := true }
          (redirectAll (substitute fuel) fuel false outcomes)
        Act.modify fun s =>
          let (_, s) := s.addJob { processes := [pid] }
          { s with lastStarted := some pid }
        settle true 0
      | .pipeline commands background => do
        let _ ← Act.flush
        let pids ← startStages fuel { calling with last := true } background none commands
        let (place, s) := (← Act.get).addJob { processes := pids }
        if background then
          Act.set { s with lastStarted := pids.getLast? }
          settle true 0
        else
          Act.set s
          settle true (← Act.awaitForeground place)
      | .sequence first second => do
        let _ ← exec fuel inner first
        if (← Act.get).skip ≠ .none then afterCommand fuel calling false 0
        else settle false (← exec fuel calling second)
      | .both first second => do
        let status ← exec fuel { tested := true } first
        if status ≠ 0 || (← Act.get).skip ≠ .none then afterCommand fuel calling false 0
        else settle false (← exec fuel calling second)
      | .either first second => do
        let status ← exec fuel { tested := true } first
        if status = 0 || (← Act.get).skip ≠ .none then afterCommand fuel calling false 0
        else settle false (← exec fuel calling second)
      | .conditional test yes no => do
        let status ← exec fuel { tested := true } test
        if (← Act.get).skip ≠ .none then afterCommand fuel calling false 0
        else if status = 0 then settle false (← exec fuel calling yes)
        else
          match no with
          | .nothing => settle false 0
          | no => settle false (← exec fuel calling no)
      | .loop whileTrue test body => do
        Act.modify fun s => { s with loops := s.loops + 1 }
        let status ← execLoop fuel inner whileTrue test body 0
        Act.modify fun s => { s with loops := s.loops - 1 }
        settle false status
      | .each line name words body => do
        Act.modify fun s => { s with line }
        let values ← expandAll (substitute fuel) fuel words
        Act.modify fun s => { s with loops := s.loops + 1 }
        let status ← execEach fuel inner name body 0 values
        Act.modify fun s => { s with loops := s.loops - 1 }
        settle false status
      | .choice line subject arms => do
        Act.modify fun s => { s with line }
        let subject ← expandText (substitute fuel) fuel { tilde := true } subject
        settle false (← execArms fuel calling subject arms)
      | .define _ name body => do
        Act.modify fun s =>
          { s with functions := (name, body) :: s.functions.filter fun f => f.1 ≠ name }
        settle false 0

/-- Run a loop; its status is that of the last run of its body. -/
def execLoop : Nat → Calling → Bool → Command → Command → Nat → Act Nat
  | 0, _, _, _, _, _ => Act.exhaust
  | fuel + 1, calling, whileTrue, test, body, status => do
    let decision ← exec fuel { tested := true } test
    match ← leaveLoop with
    | .turn => execLoop fuel calling whileTrue test body status
    | .loop | .functionAsIs => return status
    | .function => return decision
    | .none =>
      if (decision = 0) ≠ whileTrue then return status
      let status ← exec fuel calling body
      match ← leaveLoop with
      | .none | .turn => execLoop fuel calling whileTrue test body status
      | _ => return status

/-- Run a loop over values. -/
def execEach : Nat → Calling → String → Command → Nat → List String → Act Nat
  | 0, _, _, _, _, _ => Act.exhaust
  | _ + 1, _, _, _, status, [] => return status
  | fuel + 1, calling, name, body, _, value :: rest => do
    Act.setVariable name (some value)
    let status ← exec fuel calling body
    match ← leaveLoop with
    | .none | .turn => execEach fuel calling name body status rest
    | _ => return status

/-- Run the first arm with a pattern that matches. -/
def execArms : Nat → Calling → String → List (List Word × Command) → Act Nat
  | 0, _, _, _ => Act.exhaust
  | _ + 1, _, _, [] => return 0
  | fuel + 1, calling, subject, (patterns, body) :: rest => do
    if (← Act.get).skip ≠ .none then return 0
    if ← anyMatches fuel subject patterns then
      match body with
      | .nothing => return 0
      | body => exec fuel calling body
    else execArms fuel calling subject rest

/-- Whether one of some patterns matches. -/
def anyMatches : Nat → String → List Word → Act Bool
  | 0, _, _ => Act.exhaust
  | _ + 1, _, [] => return false
  | fuel + 1, subject, pattern :: rest => do
    let segments ← expandPieces (substitute fuel) fuel { tilde := true } false true pattern
    if isMatch (Segment.pattern segments) subject then return true
    else anyMatches fuel subject rest

/-- Start the commands of a pipeline, the first of them with what comes from before it. -/
def startStages : Nat → Calling → Bool → Option Nat → List Command → Act (List Nat)
  | 0, _, _, _, _ => Act.exhaust
  | _ + 1, _, _, _, [] => return []
  | fuel + 1, calling, background, input, command :: rest => do
    let link ← if rest.isEmpty then pure none else do
      let reader ← Act.reserve
      let writer ← Act.reserve
      Act.pipe reader writer
      pure (some (reader, writer))
    let pid ← inChild fuel background input.isNone command calling do
      match link with
      | some (reader, _) => Act.close reader
      | none => pure ()
      match input with
      | some reader =>
        let _ ← Act.duplicate reader 0
        Act.close reader
      | none => pure ()
      match link with
      | some (_, writer) =>
        let _ ← Act.duplicate writer 1
        Act.close writer
      | none => pure ()
    match input with
    | some reader => Act.giveBack reader
    | none => pure ()
    match link with
    | some (_, writer) => Act.giveBack writer
    | none => pure ()
    return pid :: (← startStages fuel calling background (link.map Prod.fst) rest)

/-- Expand words until there is a field; the words after it are left. -/
def firstFields : Nat → List Word → Act (List String × List Word)
  | 0, _ => Act.exhaust
  | _ + 1, [] => return ([], [])
  | fuel + 1, word :: rest => do
    match ← expandFields (substitute fuel) fuel word with
    | [] => firstFields fuel rest
    | fields => return (fields, rest)

/-- Find out which command is meant, over prefixes that only say how to look for it. -/
def resolve : Nat → Resolved → List String → List Word → Act (Resolved × List String × List Word)
  | 0, _, _, _ => Act.exhaust
  | fuel + 1, r, fields, words => do
    let name := fields.headD ""
    let isFunction := r.functions && ((← Act.get).functions.any fun f => f.1 = name)
    match if isFunction then none else utility? name with
    | some (.utility special) => do
      let r := { r with
        special := r.special.or (some special)
        isScoped := if r.special.isNone then !special else true
        isExec := name = "exec" }
      if name ≠ "command" then return (r, fields, words)
      match ← commandTarget fuel r.path (fields.drop 1) words with
      | (some (path, passed), target, words) =>
        resolve fuel { r with functions := false, path, passed := r.passed ++ name :: passed }
          target words
      | (none, rest, words) => return (r, name :: rest, words)
    | _ => return ({ r with isScoped := true, isExec := false }, fields, words)

/-- The command that another one is to run, and before it the search path for it and the words that
were passed over. Without one, or with an option that asks for something else, there is none. -/
def commandTarget : Nat → Option String → List String → List Word →
    Act (Option (Option String × List String) × List String × List Word)
  | 0, _, _, _ => Act.exhaust
  | fuel + 1, path, fields, words => do
    let (fields, words) ← if fields.isEmpty then firstFields fuel words else pure (fields, words)
    match fields with
    | [] => return (none, [], words)
    | field :: rest =>
      match field.toList with
      | '-' :: c :: cs =>
        if c = '-' && cs.isEmpty then do
          let (rest, words) ← if rest.isEmpty then firstFields fuel words else pure (rest, words)
          return if rest.isEmpty then (none, [field], words)
            else (some (path, [field]), rest, words)
        else if (c :: cs).all (· == 'p') then
          match ← commandTarget fuel (some standardPath) rest words with
          | (some (path, passed), target, words) =>
            return (some (path, field :: passed), target, words)
          | (none, rest, words) => return (none, field :: rest, words)
        else return (none, fields, words)
      | _ => return (some (path, []), fields, words)

/-- Expand the arguments of a command; some commands take assignments as they are. -/
def expandArguments : Nat → Bool → List Word → Act (List String)
  | 0, _, _ => Act.exhaust
  | _ + 1, _, [] => return []
  | fuel + 1, takesAssignment, word :: rest => do
    let fields ← if takesAssignment && Word.isAssignment word then do
        pure [← expandText (substitute fuel) fuel { assignment := true } word]
      else expandFields (substitute fuel) fuel word
    return fields ++ (← expandArguments fuel takesAssignment rest)

/-- Make the assignments of a command; the result is their texts. -/
def makeAssignments : Nat → Bool → Bool → List Word → Act (List String)
  | 0, _, _, _ => Act.exhaust
  | _ + 1, _, _, [] => return []
  | fuel + 1, isScoped, exported, word :: rest => do
    let text ← expandText (substitute fuel) fuel { assignment := true } word
    if isScoped then Act.assignForNow text true
    else
      let (name, value) := Act.splitAssignment text
      Act.assign name value { exported }
    return text :: (← makeAssignments fuel isScoped exported rest)

/-- Write the trace of a command. -/
def trace : Nat → Nat → List String → Act Unit
  | 0, _, _ => Act.exhaust
  | fuel + 1, descriptor, words => do
    let s ← Act.get
    if !s.isOn "xtrace" || s.tracing then return
    Act.modify fun s => { s with tracing := true }
    let lead ← match readQuoted ((s.value? "PS4").getD "") with
      | .ok (word, _) => expandText (substitute fuel) fuel { quoted := true } word
      | .error e => Act.failSyntax e
    Act.modify fun s => { s with tracing := false }
    let _ ← Act.write descriptor (lead ++ String.intercalate " " words ++ "\n")

/-- Run a simple command; the result is its status. -/
def execSimple : Nat → Calling → List Word → List Word → List Redirect → Act Nat
  | 0, _, _, _, _ => Act.exhaust
  | fuel + 1, calling, assignments, words, redirects => do
    let (fields, rest) ← firstFields fuel words
    let (r, fields, rest) ← if fields.isEmpty then pure ({}, [], [])
      else resolve fuel {} fields rest
    let more ← expandArguments fuel (r.special.isSome && takesAssignments (fields.headD "")) rest
    let r := { r with args := fields ++ more }
    let s ← Act.get
    let (redirectDepth, keptDepth) := (s.redirected.length, s.kept.length)
    if r.isScoped then Act.set { s with kept := [] :: s.kept }
    let outcomes ← expandRedirects (substitute fuel) fuel redirects
    let status ← if ← redirectForNow (substitute fuel) fuel outcomes then do
        let texts ← makeAssignments fuel r.isScoped (r.isExec && r.args.length > 1) assignments
        trace fuel (traceDescriptor (← Act.get) redirectDepth) (texts ++ r.passed ++ r.args)
        call fuel calling r
      else do
        Act.setStatus 2
        if r.special = some true then Act.leave .failed
        pure 2
    if (← Act.get).redirected.length > redirectDepth && r.isExec then restoreRedirects true
    unwind redirectDepth keptDepth
    return status

/-- Run a command that has been resolved. -/
def call : Nat → Calling → Resolved → Act Nat
  | 0, _, _ => Act.exhaust
  | fuel + 1, calling, r => do
    match r.args with
    | [] => do
      Act.reapAll
      return (← Act.get).substituted
    | name :: args =>
      let path := r.path.getD (← Act.get).searchPath
      match ← meaningIn path r.functions name with
      | .function body => do
        let status ← callFunction fuel calling body args
        Act.reapAll
        return status
      | .utility _ => do
        let status ← callUtility fuel calling (r.special = some true) name args
        Act.reapAll
        return status
      | .unknown e => do
        Act.warn (name ++ ": " ++ commandError e)
        Act.setStatus 127
        return 127
      | .program index => do
        let _ ← Act.flush
        if calling.last && !(← Act.get).hasTraps then become fuel path index (name :: args)
        else
          Act.foreground (Act.fork do
            let _ ← Act.attempt (become fuel path index (name :: args) : Act Unit))

/-- Let a program take the place of the process. -/
def become {α : Type} : Nat → String → Option Nat → List String → Act α
  | 0, _, _, _ => Act.exhaust
  | fuel + 1, path, index, args => do
    let s ← Act.get
    let name := args.headD ""
    let candidates := if name.toList.contains '/' then [name] else
      (pathCandidates path name).drop (index.getD 0)
    let files ← Act.look
    match loadFirst files s.directory args .notFound candidates with
    | .ok (image, words) =>
      Act.never fun _ => .become fun _ => runImage fuel image words s.environment s.directory
    | .error e => Act.quit (refusalStatus e) (name ++ ": " ++ commandError e)

/-- Call a function. -/
def callFunction : Nat → Calling → Command → List String → Act Nat
  | 0, _, _, _ => Act.exhaust
  | fuel + 1, calling, body, args => do
    let s ← Act.get
    if maxCalls ≤ s.calls then
      Act.fail ("Maximum function recursion depth (" ++ toString maxCalls ++ ") reached")
    Act.set
      { s with
        parameters := args, loops := 0, calls := s.calls + 1, optionIndex :=
          1, optionOffset := none }
    let result ← Act.attempt (exec fuel { tested := calling.tested } body)
    Act.modify fun t =>
      { t with
        parameters := s.parameters, loops := s.loops, calls := s.calls, optionIndex := s.optionIndex
        optionOffset := s.optionOffset
        skip := if t.skip = .function || t.skip = .functionAsIs then .none else t.skip }
    match result with
    | .ok _ => return (← Act.get).status
    | .error flow => Act.leave flow

/-- Call a utility. What it has written goes out when it is done. -/
def callUtility : Nat → Calling → Bool → String → List String → Act Nat
  | 0, _, _, _, _ => Act.exhaust
  | fuel + 1, calling, special, name, args => do
    let before ← Act.get
    if maxDepth ≤ before.depth then Act.die Signal.fault
    Act.set { before with utility := some name, depth := before.depth + 1 }
    let result ← Act.attempt do
      let status ← runUtility fuel calling name args
      if ← Act.flush then return status
      Act.warn (name ++ ": I/O error")
      return if status % 2 = 0 then status + 1 else status
    if let .error _ := result then
      let _ ← Act.flush
    Act.modify fun s => { s with utility := before.utility, depth := before.depth }
    match result with
    | .ok status => do
      Act.setStatus status
      return status
    | .error .failed => if special then Act.leave .failed else return (← Act.get).status
    | .error flow => Act.leave flow

/-- Run a utility. -/
def runUtility : Nat → Calling → String → List String → Act Nat
  | 0, _, _, _ => Act.exhaust
  | fuel + 1, calling, name, args =>
    match name with
    | "break" => leaveLoops .loop args
    | "continue" => leaveLoops .turn args
    | "exit" => leaveScript args
    | "return" => leaveFunction args
    | "eval" =>
      if args.isEmpty then return 0
      else runText fuel { tested := calling.tested } (String.intercalate " " args)
    | "exec" => do
      if args.isEmpty then return 0
      else become fuel (← Act.get).searchPath none args
    | "." => do
      match ← options "" args with
      | (_, []) => return 0
      | (_, file :: _) =>
        let path ← findSource file
        let descriptor ← Act.reserve
        match ← Act.openFile path .input descriptor with
        | .error e => Act.fail (openError .input path e)
        | .ok _ => do
          let line := (← Act.get).lineRead
          Act.modify fun s => { s with utility := some path, lineRead := 1 }
          let status ← runInput fuel false descriptor { input := [] } 0
          Act.modify fun s => { s with lineRead := line }
          Act.giveBack descriptor
          return status
    | name =>
      match plainUtility? name with
      | some utility => utility args
      | none => return 0

/-- Run the commands of a text; the result is the status of the last one. -/
def runText : Nat → Calling → String → Act Nat
  | 0, _, _ => Act.exhaust
  | fuel + 1, calling, text => do
    let line := (← Act.get).lineRead
    let status ← runReader fuel calling { input := text.toList } 0
    Act.modify fun s => { s with lineRead := line }
    return status

/-- Run the commands that a reader holds. -/
def runReader : Nat → Calling → Reader → Nat → Act Nat
  | 0, _, _, _ => Act.exhaust
  | fuel + 1, calling, r, status => do
    let s ← Act.get
    match readLineFrom { r with
        aliases := s.aliases, texts := s.texts, nextText := s.nextText } with
    | .error e => Act.failSyntax e
    | .ok (none, _) => return status
    | .ok (some command, r) => do
      Act.modify fun s => { s with texts := r.texts, nextText := r.nextText, lineRead := r.line }
      let result ← exec fuel calling command
      let status := match command with
        | .nothing => status
        | _ => result
      if (← Act.get).skip ≠ .none then return status
      runReader fuel calling r status

/-- Run the commands that are read from a descriptor, as far as the reader has not got them. Those
of the `main` input may be meant to end with `exit` only. -/
def runInput : Nat → Bool → Nat → Reader → Nat → Act Nat
  | 0, _, _, _, _ => Act.exhaust
  | fuel + 1, main, descriptor, r, status => do
    match ← readCommandFrom fuel descriptor r with
    | .error e => Act.failSyntax e
    | .ok (none, _) => do
      if main && (← Act.get).isOn "ignoreeof" then
        Act.say (String.join (List.replicate 50 "\nUse \"exit\" to leave shell.\n"))
      return status
    | .ok (some command, r) => do
      Act.modify fun s => { s with texts := r.texts, nextText := r.nextText, lineRead := r.line }
      let result ← exec fuel {} command
      let status := match command with
        | .nothing => status
        | _ => result
      let s ← Act.get
      if s.skip ≠ .none then
        let skip := if s.skip = .function || s.skip = .functionAsIs then .none else s.skip
        Act.set { s with skip }
        return status
      runInput fuel main descriptor r status

/-- Read the commands of a line, with more of the input as long as it is needed. -/
def readCommandFrom : Nat → Nat → Reader → Act (Except SyntaxError (Option Command × Reader))
  | 0, _, _ => Act.exhaust
  | fuel + 1, descriptor, r => do
    let s ← Act.get
    let found := readLineFrom { r with
      aliases := s.aliases, texts := s.texts, nextText := s.nextText }
    let isComplete := match found with
      | .ok (_, r) => !r.sawEnd
      | .error e => !e.sawEnd
    let finish (found : Except SyntaxError (Option Command × Reader)) :
        Act (Except SyntaxError (Option Command × Reader)) := do
      if s.isOn "verbose" then
        Act.say (String.ofList (linesRead r.input found))
      return found
    if isComplete then finish found
    else
      match ← Act.read descriptor blockSize false with
      | .ok bytes =>
        if bytes.size = 0 then finish found
        else
          let more := (octets bytes).toList.filter (· != Char.ofNat 0)
          readCommandFrom fuel descriptor { r with input := r.input ++ more }
      | .error _ => finish found

/-- The process of a program that has been loaded. -/
def runImage : Nat → Image → List String → List (String × String) → Place → Process
  | 0, _, _, _, _ => .exhausted
  | fuel + 1, image, words, environment, directory =>
    match image.tool with
    | .cat => Tool.Cat.run directory (words.headD "") (words.drop 1)
    | .sleep => Tool.Sleep.run (words.headD "") (words.drop 1)
    | .shell =>
      .look fun files => .self fun pid parent ignored =>
        let s := startState files directory environment (words.headD "") pid parent ignored
        let whole : Act Unit := do
          match ← Act.attempt (runShell fuel (words.drop 1)) with
          | .ok _ => pure ()
          | .error flow => resetAfter flow
          endScript fuel
        whole s (fun _ s => Act.exitNow s) fun _ s => Act.exitNow s

/-- Run a script as the arguments of a shell say. -/
def runShell : Nat → List String → Act Unit
  | 0, _ => Act.exhaust
  | fuel + 1, args => do
    let v ← readInvocation (args.length + 1) {} args
    let takesInput := (← Act.get).isOn "stdin"
    let runStandard : Act Unit := do
      let _ ← runInput fuel true 0 { input := [] } 0
    match v.takesText, v.rest with
    | true, [] => Act.fail "-c requires an argument"
    | true, text :: rest => do
      Act.modify fun s => { s with name := rest.headD s.name, parameters := rest.drop 1 }
      Utility.checkMonitor
      let _ ← runText fuel {} text
      if takesInput then runStandard
    | false, rest =>
      if takesInput || rest.isEmpty then do
        Act.modify fun s => { (s.turn "stdin" true) with parameters := rest }
        Utility.checkMonitor
        runStandard
      else
        let file := rest.headD ""
        let descriptor ← Act.reserve
        match ← Act.openFile file .input descriptor with
        | .error e => Act.fail (openError .input file e)
        | .ok _ => do
          Act.modify fun s => { s with name := file, parameters := rest.drop 1 }
          Utility.checkMonitor
          let _ ← runInput fuel true descriptor { input := [] } 0

end

end CommandShell.Script
