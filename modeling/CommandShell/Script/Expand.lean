import CommandShell.Script.Arithmetic
import CommandShell.Script.Glob
import CommandShell.Script.Job

/-!
# Expansion

Words are expanded into segments, and these into fields and the names of files. Commands inside of
words are run by someone else: `substitute` gives what they write.
-/

namespace CommandShell.Script

/-- How a word is expanded. -/
structure Manner where
  /-- Into fields and the names of files. -/
  full : Bool := false
  quoted : Bool := false
  /-- A tilde at the start stands for a directory. -/
  tilde : Bool := false
  /-- The word is an assignment: tildes also stand behind its equals sign and colons. -/
  assignment : Bool := false
  /-- The equals sign has been seen. -/
  hasEquals : Bool := false
  /-- The word is part of a parameter. -/
  inner : Bool := false

/-- The directories of the users that every system has. -/
def userHomes : List (String × String) :=
  [("root", "/root"), ("daemon", "/usr/sbin"), ("bin", "/bin"), ("sys", "/dev"), ("sync", "/bin"),
   ("games", "/usr/games"), ("man", "/var/cache/man"), ("lp", "/var/spool/lpd"),
     ("mail", "/var/mail"),
   ("news", "/var/spool/news"), ("uucp", "/var/spool/uucp"), ("proxy", "/bin"),
     ("www-data", "/var/www"),
   ("backup", "/var/backups"), ("list", "/var/list"), ("irc", "/run/ircd"),
     ("_apt", "/nonexistent"),
   ("nobody", "/nonexistent")]

/-- The directory that a name behind a tilde stands for. -/
def State.home? (s : State) (user : String) : Option String :=
  if user = "" then s.value? "HOME" else userHomes.lookup user

/-- A text cut into parts that stand for themselves and directories that stand there for tildes. At
the start of a word, and in an assignment also behind its equals sign and colons, a tilde stands for
a directory if its name ends before the text does or with the word. -/
def tildeParts (home? : String → Option String) (m : Manner) (isLast : Bool) :
    Nat → Bool → Bool → List Char → List (Bool × String)
  | 0, _, _, cs => [(false, String.ofList cs)]
  | fuel + 1, start, hasEquals, cs =>
    if cs.isEmpty then []
    else
      let name := (cs.drop 1).takeWhile fun c => c != '/' && !(m.assignment && c == ':')
      let rest := cs.drop (name.length + 1)
      let home :=
        if start && cs.head? = some '~' && (isLast || !rest.isEmpty) then home? (String.ofList name)
        else none
      match home with
      | some home => (true, home) :: tildeParts home? m isLast fuel false hasEquals rest
      | none =>
        let isBorder (c : Char) : Bool := m.assignment && (c == ':' || (c == '=' && !hasEquals))
        let run := cs.takeWhile fun c => !isBorder c
        match cs.drop run.length with
        | [] => [(false, String.ofList cs)]
        | c :: rest =>
          (false, String.ofList (run ++ [c])) ::
            tildeParts home? m isLast fuel true (hasEquals || c == '=') rest

/-- Whether a parameter stands for all parameters. -/
def isList (name : String) : Bool := name = "@" || name = "*"

/-- The value of a parameter that is not a list. -/
def State.parameter? (s : State) (name : String) : Option String :=
  match name with
  | "#" => some (toString s.parameters.length)
  | "?" => some (toString s.status)
  | "$" => some (toString s.pid)
  | "!" => s.lastStarted.map toString
  | "-" => some s.letters
  | "0" => some s.name
  | name =>
    if name.toList.all Char.isDigit then
      match decimal name.toList with
      | 0 => some s.name
      | n + 1 => s.parameters[n]?
    else s.value? name

/-- What stands between the parameters of a list. -/
def State.listBorder (s : State) (name : String) (quoted full : Bool) : List Char :=
  if name = "@" && quoted && full then [border]
  else
    match s.value? "IFS" with
    | none => [' ']
    | some separators => if !quoted && full then [border] else separators.toList.take 1

/-- The characters of a parameter, if it is set. -/
def State.characters? (s : State) (name : String) (quoted full : Bool) : Option (List Marked) :=
  if isList name then
    let between := markAll quoted (String.ofList (s.listBorder name quoted full))
    some (List.intercalate between (s.parameters.map (markAll quoted)))
  else (s.parameter? name).map (markAll quoted)

/-- The segment of the characters of a parameter. -/
def State.segment (s : State) (name : String) (quoted full : Bool) (cs : List Marked) : Segment :=
  if !quoted then .fields cs
  else if name = "@" && full && !s.parameters.isEmpty then .bordered cs
  else .plain cs

/-- The segment of a text that commands or expressions give. -/
def resultSegment (quoted : Bool) (text : String) : Segment :=
  if quoted then .plain (markAll true text) else .fields (markAll false text)

/-- All parameters between quotes. -/
def allParameters? : Word → Option Word
  | .mark :: .parameter "@" .value [] :: .mark :: rest => some rest
  | _ => none

/-- The error of a parameter that is not set, or after a colon empty. -/
def Act.failUnset {α : Type} (name : String) (message : Option String) (colon : Bool) : Act α :=
  Act.fail (name ++ ": " ++
    message.getD (if colon then "parameter not set or null" else "parameter not set"))

/-- The value of an arithmetic expression. -/
def Act.evaluate (expression : String) : Act Int := do
  let s ← get
  let isReadOnly (name : String) : Bool := (s.lookUp? name).any Variable.readOnly
  let (result, assigned) := Arithmetic.evaluate s.value? isReadOnly expression
  for (name, n) in assigned do
    assign name (some (toString n))
  match result with
  | .ok n => return n
  | .error (.malformed message) =>
    fail ("arithmetic expression: " ++ message ++ ": \"" ++ expression ++ "\"")
  | .error (.illegalNumber text) => fail ("Illegal number: " ++ text)
  | .error (.readOnly name) => fail (name ++ ": is read only")
  | .error .overflow => die 8

mutual

/-- The segments of a word. -/
def expandPieces (substitute : Command → Act String) :
    Nat → Manner → Bool → Bool → Word → Act (List Segment)
  | 0, _, _, _, _ => Act.exhaust
  | _ + 1, _, _, _, [] => return []
  | fuel + 1, m, inQuotes, start, piece :: rest => do
    let next (m : Manner) (inQuotes : Bool) (rest : Word) (segments : List Segment) :
      Act (List Segment) := do
      return segments ++ (← expandPieces substitute fuel m inQuotes false rest)
    match if inQuotes then none else allParameters? (piece :: rest) with
    | some rest => do
      let segments ← expandParameter substitute fuel { m with quoted := true } "@" .value []
      next m inQuotes rest segments
    | none =>
      let quoted := m.quoted || inQuotes
      match piece with
      | .mark => next m (!inQuotes) rest [.mark]
      | .text text true => next m inQuotes rest [.plain (escapeAll text)]
      | .text text false =>
        let segment (cs : List Marked) : Segment :=
          if m.inner && !quoted then .fields cs else .plain cs
        if inQuotes then next m inQuotes rest [.plain (markAll false text)]
        else do
          let s ← Act.get
          let parts :=
            tildeParts s.home? m rest.isEmpty (2 * text.length + 2) (start && m.tilde)
              m.hasEquals text.toList
          let hasEquals := m.hasEquals || text.toList.contains '='
          next { m with hasEquals } inQuotes rest (parts.map fun
            | (true, home) => .plain (markAll true home)
            | (false, text) => segment (markAll false text))
      | .parameter name use word => do
        let segments ← expandParameter substitute fuel { m with quoted } name use word
        next m inQuotes rest segments
      | .arithmetic expression => do
        let inner ← expandPieces substitute fuel {} false false expression
        let n ← Act.evaluate (Segment.join inner)
        next m inQuotes rest [resultSegment quoted (toString n)]
      | .substitution body => do
        let text ← substitute body
        next m inQuotes rest [resultSegment quoted text]

/-- The segments of a parameter. -/
def expandParameter (substitute : Command → Act String) :
    Nat → Manner → String → Use → Word → Act (List Segment)
  | 0, _, _, _, _ => Act.exhaust
  | fuel + 1, m, name, use, word => do
    let s ← Act.get
    let value := s.characters? name m.quoted m.full
    let isMissing (colon : Bool) : Bool :=
      match value with
      | none => true
      | some cs => colon && cs.isEmpty
    let asValue (cs : List Marked) : List Segment := [s.segment name m.quoted m.full cs]
    let wordSegments : Act (List Segment) :=
      expandPieces substitute fuel { m with tilde := true, inner := true } false true word
    let wordText : Act String := do
      return Segment.join (← expandPieces substitute fuel { tilde := true } false true word)
    let required : Act (List Marked) := do
      match value with
      | none => if s.isOn "nounset" then Act.failUnset name none false else return []
      | some cs => return cs
    match use with
    | .bad => Act.fail "Bad substitution"
    | .value => do
      let cs ← required
      return if value.isNone then [] else asValue cs
    | .length => do
      let _ ← required
      let cs := (s.characters? name true false).getD []
      return [resultSegment m.quoted (toString cs.length)]
    | .orElse colon => if isMissing colon then wordSegments else return asValue (value.getD [])
    | .ifSet colon => if isMissing colon then return [] else wordSegments
    | .orAssign colon =>
      if isMissing colon then
        let text ← wordText
        Act.setVariable name (some text)
        expandParameter substitute fuel m name .value []
      else return asValue (value.getD [])
    | .orFail colon =>
      if isMissing colon then
        let message ← wordText
        Act.failUnset name (if word.isEmpty then none else some message) colon
      else return asValue (value.getD [])
    | .trim atEnd longest => do
      let cs ← required
      if value.isNone then return []
      let pattern ← expandPieces substitute fuel { tilde := true } false true word
      return asValue (trim atEnd longest (Segment.pattern pattern) cs)

end

/-- The fields of a word, with the names of files for those that are patterns. -/
def expandFields (substitute : Command → Act String) (fuel : Nat) (word : Word) :
    Act (List String) := do
  let segments ← expandPieces substitute fuel { full := true, tilde := true } false true word
  let s ← Act.get
  let fields := fieldsOf s.separators.toList none segments
  if s.isOn "noglob" || !fields.any mayBeGlob then return fields.map Glyph.text
  let files ← Act.look
  return fields.flatMap (globField files s.directory)

/-- The fields of words. -/
def expandAll (substitute : Command → Act String) (fuel : Nat) : List Word → Act (List String)
  | [] => return []
  | word :: rest => do
    let fields ← expandFields substitute fuel word
    return fields ++ (← expandAll substitute fuel rest)

/-- A word as one text. -/
def expandText (substitute : Command → Act String) (fuel : Nat) (m : Manner) (word : Word) :
    Act String := do
  return Segment.join (← expandPieces substitute fuel m false true word)

end CommandShell.Script
