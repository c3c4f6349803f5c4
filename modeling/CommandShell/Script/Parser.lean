import CommandShell.Script.Octets
import CommandShell.Script.Token

/-!
# Reading scripts

The grammar of the script language. `readCommands` reads the commands up to the end of a line, as a
script is run line by line. Words, which may hold commands, and commands, which consist of words,
are read by one recursion. Its fuel is counted from the length of the input.
-/

namespace CommandShell.Script

/-- How characters are taken. -/
inductive Mode where
  | plain
  | double
  | single
  | arithmetic
  deriving DecidableEq, Repr

/-- What a reader of words is inside of. -/
structure Frame where
  mode : Mode := .plain
  /-- Inside of double quotes or something like them. -/
  doubled : Bool := false
  /-- Inside of quotes between braces. -/
  inner : Bool := false
  /-- How many braces are open, and how many of them inside of double quotes. -/
  braces : Nat := 0
  doubledBraces : Nat := 0
  /-- How many parentheses are open. -/
  parens : Nat := 0
  /-- The frame ends with a brace. -/
  isBraced : Bool := false

/-- A word that is being read. -/
structure Draft where
  /-- The pieces, last first. -/
  pieces : List Piece := []
  quoted : Bool := false
  frames : List Frame := [{}]

namespace Draft

def frame (d : Draft) : Frame := d.frames.headD {}

def setFrame (d : Draft) (f : Frame) : Draft := { d with frames := f :: d.frames.drop 1 }

def add (d : Draft) (p : Piece) : Draft := { d with pieces := p :: d.pieces }

/-- Add characters to the word. -/
def addText (d : Draft) (cs : List Char) (escaped : Bool) : Draft :=
  match d.pieces with
  | .text t e :: rest =>
    if e = escaped then { d with pieces := .text (t ++ String.ofList cs) e :: rest }
    else d.add (.text (String.ofList cs) escaped)
  | _ => d.add (.text (String.ofList cs) escaped)

/-- Add characters that stand for themselves, if there are any. -/
def addKept (d : Draft) (cs : List Char) : Draft := if cs.isEmpty then d else d.addText cs true

end Draft

/-- What ended a run of pieces. -/
inductive Closing where
  | brace
  | arithmetic
  | word
  deriving DecidableEq, Repr

/-- The characters that have a meaning in patterns and names of directories even inside of
quotes. -/
def isPatternChar (c : Char) : Bool := "!*?[]=~:/-".toList.contains c

/-- The characters that end a word. -/
def endsWord (c : Char) : Bool := "<>();&| \t".toList.contains c

/-- Whether a character stands for itself. -/
def isOrdinary (mode : Mode) (c : Char) : Bool :=
  c != Read.aliasEnd && c != '\n' &&
  match mode with
  | .plain => !endsWord c && !"\\'\"`$\x7d".toList.contains c
  | .double => !isPatternChar c && !"\\\"`$\x7d".toList.contains c
  | .single => !isPatternChar c && !"\\'".toList.contains c
  | .arithmetic => !"\\`$\x7d()".toList.contains c

/-- The parameters that are named by one sign. -/
def isSign (c : Char) : Bool := "@*#?$!-".toList.contains c

/-- Whether a backslash is kept before a character inside of double quotes. -/
def keepsBackslash (here : Bool) (f : Frame) (c : Char) : Bool :=
  f.doubled && c != '\\' && c != '`' && c != '$' && (c != '"' || (here && f.braces = 0)) &&
    (c != '\x7d' || f.braces = 0)

/-- How a line of a text that follows a command begins. -/
structure HereLine where
  /-- The line is the end of the text. -/
  isEnd : Bool := false
  /-- Characters at the start that stand for themselves. -/
  kept : List Char := []
  rest : List Char
  /-- The number of the line. -/
  line : Nat

/-- Begin a line of a text that follows a command. Ends of lines after a backslash are passed over
before tabs are, and behind tabs they stand for themselves. -/
def HereLine.start (h : HereText) (input : List Char) (line : Nat) : HereLine :=
  let (input, line) := if h.verbatim then (input, line) else Read.dropJoins input line
  let body := if h.strips then input.dropWhile (· == '\t') else input
  let continued : HereLine :=
    match body with
    | '\\' :: '\n' :: rest =>
      if h.verbatim || body.length = input.length then { rest := body, line }
      else { kept := ['\\', '\n'], rest, line := line + 1 }
    | _ => { rest := body, line }
  if h.delimiter.isPrefixOf body then
    match body.drop h.delimiter.length with
    | [] => { isEnd := true, rest := [], line }
    | '\n' :: rest => { isEnd := true, rest, line }
    | _ => continued
  else continued

/-- The uses of a parameter that one sign asks for. -/
def useOf? (colon : Bool) : Char → Option Use
  | '\x7d' => some (if colon then .orElse true else .value)
  | '-' => some (.orElse colon)
  | '+' => some (.ifSet colon)
  | '?' => some (.orFail colon)
  | '=' => some (.orAssign colon)
  | _ => none

/-- The text up to a back quote; a backslash takes some characters as they are. -/
def readBackquoted (doubled : Bool) : Nat → List Char → Read (List Char)
  | 0, _ => Read.fail "EOF in backquote substitution"
  | fuel + 1, seen => do
    match ← Read.joined? with
    | none => Read.fail "EOF in backquote substitution"
    | some '`' => return seen.reverse
    | some '\\' =>
      match ← Read.char? with
      | none => Read.fail "EOF in backquote substitution"
      | some c =>
        if c == '\\' || c == '`' || c == '$' || (doubled && c == '"') then
          readBackquoted doubled fuel (c :: seen)
        else readBackquoted doubled fuel (c :: '\\' :: seen)
    | some c =>
      if c == '\n' then Read.newLine
      readBackquoted doubled fuel (c :: seen)

/-- The operator of a redirection, after its first character. -/
def readOperator (c : Char) : Read (Nat × Operator) := do
  let d ← Read.joined?
  if c == '>' then
    match d with
    | some '>' => return (1, .file .append)
    | some '|' => return (1, .file .overwrite)
    | some '&' => return (1, .duplicate)
    | d => do
      Read.putBack d
      return (1, .file .output)
  else
    match d with
    | some '<' => do
      match ← Read.joined? with
      | some '-' => return (0, .here true)
      | e => do
        Read.putBack e
        return (0, .here false)
    | some '&' => return (0, .duplicate)
    | some '>' => return (0, .file .both)
    | d => do
      Read.putBack d
      return (0, .file .input)

/-- Check how a word ended. -/
def checkEnd (here : Bool) (f : Frame) : Read Unit := do
  if f.mode = .arithmetic then Read.fail "Missing '))'"
  if f.mode ≠ .plain && !here then Read.fail "Unterminated quoted string"
  if f.braces ≠ 0 then Read.fail "Missing '\x7d'"

/-- A word after which no more is checked is a reserved word, an alias or just a word. -/
inductive Reserved where
  | token (t : Token)
  | shorthand (name text : String)
  | none

def classify (r : Reader) (checks : Checks) : Reserved :=
  match if r.quoted then Option.none else Word.plain? r.word with
  | Option.none => .none
  | some w =>
    match if checks.reserved then Token.reserved.lookup w else Option.none with
    | some t => .token t
    | Option.none =>
      match if checks.shorthand && !r.inside.any (fun a => a.1 = w) then r.aliases.lookup w
        else Option.none with
      | some text => .shorthand w text
      | Option.none => .none

/-- A function may not have the name of one of the commands that are part of the language. -/
def isSpecialName (name : String) : Bool :=
  [".", ":", "break", "continue", "eval", "exec", "exit", "export", "readonly", "return",
    "set", "shift",
   "times", "trap", "unset"].contains name

/-- A command that runs beside what follows it. -/
def inBackground : Command → Command
  | .pipeline commands _ => .pipeline commands true
  | .redirected line body redirects => .background line body redirects
  | command => .background 0 command []

mutual

/-- The pieces of a word, up to its end or to the end of what was opened last. -/
def readPieces (here : Option HereText) : Nat → Draft → Read (Draft × Closing)
  | 0, _ => Read.fail "end of file unexpected"
  | fuel + 1, d => do
    let f := d.frame
    let finish (c : Option Char) : Read (Draft × Closing) := do
      Read.putBack c
      checkEnd here.isSome f
      return (d, .word)
    let plain ← Read.span (isOrdinary f.mode)
    if !plain.isEmpty then readPieces here fuel (d.addText plain false)
    else if (← Read.atAliasEnd) && f.mode = .plain && f.braces = 0 && !d.pieces.isEmpty then
      finish none
    else
      match ← (if f.mode = .single then Read.char? else Read.joined?) with
      | none => finish none
      | some '\n' =>
        if f.mode = .plain && f.braces = 0 then finish (some '\n')
        else do
          Read.newLine
          let d := d.addText ['\n'] false
          match here with
          | none => readPieces here fuel d
          | some h =>
            let l := HereLine.start h (← get).input (← get).line
            if l.isEnd then
              modify fun r =>
                { r with input := l.rest, line := l.line + 1, sawEnd := r.sawEnd || l.rest.isEmpty }
              checkEnd true f
              return (d, .word)
            else
              modify fun r => { r with input := l.rest, line := l.line }
              readPieces here fuel (d.addKept l.kept)
      | some c => do
        if isOrdinary f.mode c then readPieces here fuel (d.addText [c] false)
        else if c == '\'' && (f.mode = .plain || f.mode = .single) then
          if f.mode = .plain then
            readPieces here fuel ((d.setFrame { f with mode := .single }).add .mark)
          else if here.isSome && f.braces = 0 then readPieces here fuel (d.addText [c] false)
          else
            let f := if f.doubledBraces = 0 then { f with mode := .plain, doubled := false } else f
            readPieces here fuel ({ d.setFrame f with quoted := true }.add .mark)
        else if f.mode = .single then readPieces here fuel (d.addText [c] true)
        else if c == '\\' then
          match ← Read.char? with
          | none => readPieces here fuel (d.addText ['\\'] true)
          | some e =>
            let d := if keepsBackslash here.isSome f e then d.addText ['\\'] true else d
            if e == '\n' then Read.newLine
            readPieces here fuel { d.addText [e] true with quoted := true }
        else if c == '"' && f.mode ≠ .arithmetic then
          if f.mode = .plain then
            let f := { f with mode := .double, doubled := true, inner := f.inner != (f.braces > 0) }
            let d := d.setFrame f
            readPieces here fuel (if here.isSome then d else d.add .mark)
          else if here.isSome && f.braces = 0 then readPieces here fuel (d.addText [c] false)
          else
            let f := if f.doubledBraces = 0 then { f with mode := .plain, doubled := false } else f
            let f := { f with inner := f.inner != (f.braces > 0) }
            let d := { d.setFrame f with quoted := true }
            readPieces here fuel (if here.isSome then d else d.add .mark)
        else if c == '$' then do
          let d ← readDollar here fuel d
          readPieces here fuel d
        else if c == '`' then
          if (← get).checks.delimiter then readPieces here fuel (d.addText [c] false)
          else do
            let body ← readBackquoted f.doubled (← get).input.length.succ []
            let command ← readInside fuel body
            readPieces here fuel (d.add (.substitution command))
        else if c == '\x7d' then
          if !f.inner && f.braces > 0 then
            let f := { f with braces := f.braces - 1 }
            if f.braces = 0 && f.isBraced then return ({ d with frames := d.frames.drop 1 }, .brace)
            else return (d.setFrame { f with doubledBraces := f.doubledBraces - 1 }, .brace)
          else readPieces here fuel (d.addText [c] false)
        else if f.mode = .arithmetic then
          if c == '(' then
            readPieces here fuel ((d.setFrame { f with parens := f.parens + 1 }).addText [c] false)
          else if f.parens > 0 then
            readPieces here fuel ((d.setFrame { f with parens := f.parens - 1 }).addText [c] false)
          else
            match ← Read.joined? with
            | some ')' => return ({ d with frames := d.frames.drop 1 }, .arithmetic)
            | e => do
              Read.putBack e
              readPieces here fuel (d.addText [c] false)
        else if f.mode = .double then readPieces here fuel (d.addText [c] true)
        else if f.braces = 0 then finish (some c)
        else readPieces here fuel (d.addText [c] false)

/-- What a dollar sign begins. -/
def readDollar (here : Option HereText) : Nat → Draft → Read Draft
  | 0, _ => Read.fail "end of file unexpected"
  | fuel + 1, d => do
    let c ← Read.joined?
    match if (← get).checks.delimiter then none else c with
    | some '(' => do
      match ← Read.joined? with
      | some '(' => do
        let frame : Frame := { mode := .arithmetic, doubled := true }
        let (inner, _) ← readPieces here fuel { frames := frame :: d.frames }
        return { d with frames := inner.frames, quoted := d.quoted || inner.quoted }.add
          (.arithmetic inner.pieces.reverse)
      | e => do
        Read.putBack e
        let r ← get
        modify fun r => { r with expected := [], checks := {} }
        let command ← readList fuel true false
        if (← readToken fuel) ≠ .rightParen then Read.unexpected (some .rightParen)
        readTexts fuel
        modify fun s => { s with expected := r.expected }
        return d.add (.substitution command)
    | some '\x7b' => readBraced here fuel d
    | some c =>
      if isNameStart c then
        let name := String.ofList (c :: (← Read.span isNameChar))
        return d.add (.parameter name .value [])
      else if c.isDigit || isSign c then return d.add (.parameter (String.ofList [c]) .value [])
      else do
        Read.putBack (some c)
        return d.addText ['$'] false
    | none => do
      Read.putBack c
      return d.addText ['$'] false

/-- A parameter between braces. -/
def readBraced (here : Option HereText) : Nat → Draft → Read Draft
  | 0, _ => Read.fail "end of file unexpected"
  | fuel + 1, d => do
    let nameAfter (c : Char) : Read (Option String) := do
      if isNameStart c then return some (String.ofList (c :: (← Read.span isNameChar)))
      else if c.isDigit then return some (String.ofList (c :: (← Read.span Char.isDigit)))
      else return none
    -- The name, and the use if it is known before the sign for it.
    let (name, use) ← do
      match ← Read.joined? with
      | none => pure ("", some Use.bad)
      | some c =>
        match ← nameAfter c with
        | some name => pure (name, none)
        | none =>
          if c == '#' then
            let e ← Read.joined?
            match e with
            | none => pure ("#", none)
            | some e =>
              match ← nameAfter e with
              | some name => pure (name, some Use.length)
              | none =>
                let g ← Read.joined?
                if e == '\x7d' || g != some '\x7d' then
                  Read.putBack g
                  Read.putBack (some e)
                  pure ("#", none)
                else do
                  Read.putBack g
                  if isSign e then pure (String.ofList [e], some Use.length)
                  else pure ("", some Use.bad)
          else if c == '\x7d' then do
            Read.putBack (some c)
            pure ("", some Use.bad)
          else if isSign c then pure (String.ofList [c], none)
          else pure ("", some Use.bad)
    let c ← Read.joined?
    -- The use, and whether the word that follows is a pattern.
    let (use, isPattern) ← do
      match use with
      | some .length =>
        Read.putBack c
        pure (if c == some '\x7d' then Use.length else .bad, false)
      | some use =>
        Read.putBack c
        pure (use, false)
      | none =>
        match c with
        | none => pure (Use.bad, false)
        | some ':' =>
          let e ← Read.joined?
          match e.bind (useOf? true) with
          | some use => pure (use, false)
          | none => pure (.bad, false)
        | some c =>
          if c == '%' || c == '#' then
            let e ← Read.joined?
            if e == some c then pure (.trim (c == '%') true, true)
            else do
              Read.putBack e
              pure (.trim (c == '%') false, true)
          else
            match useOf? false c with
            | some use => pure (use, false)
            | none => pure (.bad, false)
    if use = .value then return d.add (.parameter name use [])
    let f := d.frame
    let mode := if isPattern then Mode.plain else if f.mode = .arithmetic then .double else f.mode
    let frames :=
      if mode ≠ f.mode || f.inner then
        let doubled := mode ≠ .plain
        { mode, doubled, braces := 1, doubledBraces := if doubled then 1 else 0,
          isBraced := true } :: d.frames
      else
        { f with braces := f.braces + 1, doubledBraces := if f.doubled then f.doubledBraces +
          1 else f.doubledBraces }
          :: d.frames.drop 1
    let (inner, _) ← readPieces here fuel { frames, quoted := d.quoted }
    return { d with frames := inner.frames, quoted := inner.quoted }.add
      (.parameter name use inner.pieces.reverse)

/-- The commands in a text of their own. -/
def readInside : Nat → List Char → Read Command
  | 0, _ => Read.fail "end of file unexpected"
  | fuel + 1, text => Read.within text do
    let command ← readList fuel true false
    readTexts fuel
    return command

/-- The texts that follow the line. -/
def readTexts : Nat → Read Unit
  | 0 => Read.fail "end of file unexpected"
  | fuel + 1 => do
    match (← get).expected with
    | [] => return
    | h :: rest => do
      modify fun r => { r with expected := rest }
      let checks := (← get).checks
      modify fun r => { r with checks := {} }
      let l := HereLine.start h (← get).input (← get).line
      if l.isEnd then
        modify fun r =>
          { r with input := l.rest, line := l.line + 1, texts := (h.number, []) :: r.texts }
      else do
        modify fun r => { r with input := l.rest, line := l.line }
        let mode := if h.verbatim then Mode.single else .double
        let start : Draft := { frames := [{ mode, doubled := !h.verbatim }] }
        let (d, _) ← readPieces (some h) fuel (start.addKept l.kept)
        modify fun r => { r with texts := (h.number, d.pieces.reverse) :: r.texts }
      modify fun r => { r with checks }
      readTexts fuel

/-- A token, whatever it is checked for. -/
def readRawToken : Nat → Read Token
  | 0 => Read.fail "end of file unexpected"
  | fuel + 1 => do
    let found (t : Token) : Read Token := do
      modify fun r => { r with last := t }
      return t
    let either (c : Char) (two one : Token) : Read Token := do
      let d ← Read.joined?
      if d == some c then found two
      else do
        Read.putBack d
        found one
    let r ← get
    if r.isPushedBack then
      set { r with isPushedBack := false }
      return r.last
    match ← Read.joined? with
    | none => found .endOfFile
    | some c =>
      if c == ' ' || c == '\t' then readRawToken fuel
      else if c == '#' then do
        modify fun r => Read.dropLine r.input r
        readRawToken fuel
      else if c == '\n' then do
        Read.newLine
        found .newline
      else if c == '&' then either '&' .andIf .background
      else if c == '|' then either '|' .orIf .pipe
      else if c == ';' then either ';' .endCase .semicolon
      else if c == '(' then found .leftParen
      else if c == ')' then found .rightParen
      else do
        Read.putBack (some c)
        let (d, _) ← readPieces none fuel {}
        let word := d.pieces.reverse
        let wordFound : Read Token := do
          modify fun r => { r with word, quoted := d.quoted }
          found .word
        match (← get).input.head?, d.quoted, Word.plain? word with
        | some c, false, some t =>
          if (c == '<' || c == '>') &&
            (t.isEmpty || (t.length = 1 && t.toList.all Char.isDigit)) then do
            let _ ← Read.char?
            let (descriptor, operator) ← readOperator c
            let descriptor := match t.toList with
              | d :: _ => d.toNat - '0'.toNat
              | [] => descriptor
            modify fun r => { r with descriptor, operator }
            found .redirection
          else wordFound
        | _, _, _ => wordFound

/-- A token after ends of lines. -/
def readOverLines : Nat → Read Token
  | 0 => Read.fail "end of file unexpected"
  | fuel + 1 => do
    match ← readRawToken fuel with
    | .newline => do
      readTexts fuel
      readOverLines fuel
    | t => return t

/-- The next token. -/
def readToken : Nat → Read Token
  | 0 => Read.fail "end of file unexpected"
  | fuel + 1 => do
    let checks := (← get).checks
    let t ← if checks.newline then readOverLines fuel else readRawToken fuel
    let r ← get
    let checks := { checks with
      reserved := checks.reserved || r.checks.reserved
      shorthand := checks.shorthand || r.checks.shorthand }
    set { r with checks := {} }
    if t ≠ .word then return t
    match classify r checks with
    | .none => return t
    | .token t => do
      modify fun r => { r with last := t }
      return t
    | .shorthand name text => do
      let endsBlank := text.toList.getLast?.any fun c => c == ' ' || c == '\t'
      if !text.isEmpty then
        modify fun r => { r with
          input := text.toList ++ Read.aliasEnd :: r.input
          inside := (name, endsBlank) :: r.inside }
      modify fun r => { r with checks }
      readToken fuel

/-- Commands one after the other. Those of a whole line end with it; in a list that may be empty, a
token that ends it may come first. -/
def readList : Nat → Bool → Bool → Read Command
  | 0, _, _ => Read.fail "end of file unexpected"
  | fuel + 1, mayEnd, line => do
    Read.expect { Checks.command with newline := !line }
    match ← readToken fuel with
    | .newline => do
      readTexts fuel
      return .nothing
    | .endOfFile => do
      readTexts fuel
      Read.pushBack
      return .nothing
    | t => do
      Read.pushBack
      if mayEnd && t.endsList then return .nothing
      let command ← readAndOr fuel
      let sequence (first second : Command) : Command :=
        match second with
        | .nothing => first
        | second => .sequence first second
      match ← readToken fuel with
      | .endOfFile => do
        readTexts fuel
        Read.pushBack
        return command
      | .newline => do
        Read.pushBack
        return sequence command (← readList fuel (!line) line)
      | .background => return sequence (inBackground command) (← readList fuel (!line) line)
      | .semicolon => return sequence command (← readList fuel (!line) line)
      | _ =>
        if line then Read.unexpected
        Read.pushBack
        return command

/-- Pipelines joined by `&&` and `||`. -/
def readAndOr : Nat → Read Command
  | 0 => Read.fail "end of file unexpected"
  | fuel + 1 => do
    let first ← readPipeline fuel
    readJoined fuel first

/-- Pipelines joined to those read so far. -/
def readJoined : Nat → Command → Read Command
  | 0, _ => Read.fail "end of file unexpected"
  | fuel + 1, first => do
    match ← readToken fuel with
    | .andIf => do
      Read.expect .laterCommand
      let second ← readPipeline fuel
      readJoined fuel (.both first second)
    | .orIf => do
      Read.expect .laterCommand
      let second ← readPipeline fuel
      readJoined fuel (.either first second)
    | _ => do
      Read.pushBack
      return first

/-- A pipeline, perhaps negated. -/
def readPipeline : Nat → Read Command
  | 0 => Read.fail "end of file unexpected"
  | fuel + 1 => do
    let negated := (← readToken fuel) = .not
    if negated then Read.expect .command else Read.pushBack
    let first ← readCommand fuel
    let rest ← readPiped fuel
    let command := if rest.isEmpty then first else .pipeline (first :: rest) false
    return if negated then .negated command else command

/-- The commands after the first one of a pipeline. -/
def readPiped : Nat → Read (List Command)
  | 0 => Read.fail "end of file unexpected"
  | fuel + 1 => do
    if (← readToken fuel) = .pipe then
      Read.expect .laterCommand
      let command ← readCommand fuel
      return command :: (← readPiped fuel)
    else do
      Read.pushBack
      return []

/-- Expect a token. -/
def readExpected : Nat → Token → Read Unit
  | 0, _ => Read.fail "end of file unexpected"
  | fuel + 1, t => do
    if (← readToken fuel) ≠ t then Read.unexpected (some t)

/-- A command. -/
def readCommand : Nat → Read Command
  | 0 => Read.fail "end of file unexpected"
  | fuel + 1 => do
    let line := (← get).line
    let compound (body : Command) : Read Command := do
      Read.expect .command
      let redirects ← readRedirects fuel
      if redirects.isEmpty then return body
      match body with
      | .subshell line body _ => return .subshell line body redirects
      | body => return .redirected line body redirects
    match ← readToken fuel with
    | .if => do
      let body ← readIf fuel
      readExpected fuel .fi
      compound body
    | .while => do
      let body ← readLoop fuel true
      compound body
    | .until => do
      let body ← readLoop fuel false
      compound body
    | .for => do
      let body ← readFor fuel line
      compound body
    | .case => do
      readExpected fuel .word
      let subject := (← get).word
      Read.expect .laterCommand
      readExpected fuel .in
      let arms ← readArms fuel
      compound (.choice line subject arms)
    | .leftParen => do
      let body ← readList fuel false false
      readExpected fuel .rightParen
      compound (.subshell line body [])
    | .begin => do
      let body ← readList fuel false false
      readExpected fuel .end
      compound body
    | .word => do
      Read.pushBack
      readSimple fuel (← get).line true [] [] []
    | .redirection => do
      Read.pushBack
      readSimple fuel (← get).line true [] [] []
    | _ => Read.unexpected

/-- A conditional, after its first word and up to its last one. -/
def readIf : Nat → Read Command
  | 0 => Read.fail "end of file unexpected"
  | fuel + 1 => do
    let test ← readList fuel false false
    readExpected fuel .then
    let yes ← readList fuel false false
    match ← readToken fuel with
    | .elif => do
      let no ← readIf fuel
      return .conditional test yes no
    | .else => do
      let no ← readList fuel false false
      return .conditional test yes no
    | _ => do
      Read.pushBack
      return .conditional test yes .nothing

/-- A loop, after its first word. -/
def readLoop : Nat → Bool → Read Command
  | 0, _ => Read.fail "end of file unexpected"
  | fuel + 1, whileTrue => do
    let test ← readList fuel false false
    readExpected fuel .do
    let body ← readList fuel false false
    readExpected fuel .done
    return .loop whileTrue test body

/-- A loop over words, after its first word. -/
def readFor : Nat → Nat → Read Command
  | 0, _ => Read.fail "end of file unexpected"
  | fuel + 1, line => do
    let t ← readToken fuel
    let r ← get
    let name :=
      ((Word.plain? r.word).filter fun w => isName w && !r.quoted).filter fun _ => t = .word
    match name with
    | none => Read.fail "Bad for loop variable"
    | some name => do
      Read.expect .laterCommand
      let words ← do
        match ← readToken fuel with
        | .in => do
          let words ← readWords fuel
          let last := (← get).last
          if last ≠ .newline && last ≠ .semicolon then Read.unexpected
          pure words
        | .semicolon => pure [[Piece.mark, .parameter "@" .value [], .mark]]
        | _ => do
          Read.pushBack
          pure [[Piece.mark, .parameter "@" .value [], .mark]]
      Read.expect .laterCommand
      readExpected fuel .do
      let body ← readList fuel false false
      readExpected fuel .done
      return .each line name words body

/-- Words up to a token that is none. -/
def readWords : Nat → Read (List (List Piece))
  | 0 => Read.fail "end of file unexpected"
  | fuel + 1 => do
    if (← readToken fuel) = .word then
      let word := (← get).word
      return word :: (← readWords fuel)
    else return []

/-- The patterns of an arm, after the first token of the first one. -/
def readPatterns : Nat → Read (List (List Piece))
  | 0 => Read.fail "end of file unexpected"
  | fuel + 1 => do
    let pattern := (← get).word
    if (← readToken fuel) = .pipe then
      let _ ← readToken fuel
      return pattern :: (← readPatterns fuel)
    else
      if (← get).last ≠ .rightParen then Read.unexpected (some .rightParen)
      return [pattern]

/-- The arms of a choice and its last word. -/
def readArms : Nat → Read (List (List (List Piece) × Command))
  | 0 => Read.fail "end of file unexpected"
  | fuel + 1 => do
    Read.expect { reserved := true, newline := true }
    match ← readToken fuel with
    | .esac => return []
    | t => do
      if t = .leftParen then
        let _ ← readToken fuel
      let patterns ← readPatterns fuel
      let body ← readList fuel true false
      Read.expect { reserved := true, newline := true }
      match ← readToken fuel with
      | .esac => return [(patterns, body)]
      | .endCase => return (patterns, body) :: (← readArms fuel)
      | _ => Read.unexpected (some .endCase)

/-- The redirections that follow. -/
def readRedirects : Nat → Read (List Redirect)
  | 0 => Read.fail "end of file unexpected"
  | fuel + 1 => do
    if (← readToken fuel) = .redirection then
      let redirect ← readTarget fuel
      return redirect :: (← readRedirects fuel)
    else do
      Read.pushBack
      return []

/-- Where the redirection leads that has just been read. -/
def readTarget : Nat → Read Redirect
  | 0 => Read.fail "end of file unexpected"
  | fuel + 1 => do
    let r ← get
    let target ← do
      match r.operator with
      | .file use => do
        if (← readToken fuel) ≠ .word then Read.unexpected
        pure (Target.file use (← get).word)
      | .duplicate => do
        if (← readToken fuel) ≠ .word then Read.unexpected
        let word := (← get).word
        match Word.plain? word with
        | some "-" => pure Target.closed
        | some w =>
          match w.toList with
          | [c] =>
            if c.isDigit then pure (.descriptor (c.toNat - '0'.toNat)) else pure (.named word)
          | _ => pure (.named word)
        | none => pure (.named word)
      | .here strips => do
        Read.expect { delimiter := true }
        if (← readToken fuel) ≠ .word then Read.unexpected
        let s ← get
        let text : HereText :=
          { number := s.nextText, delimiter := (Word.bare s.word).toList, strips,
            verbatim := s.quoted }
        set { s with nextText := s.nextText + 1, expected := s.expected ++ [text] }
        pure (.here text.number)
    return .mk r.descriptor target

/-- The assignments, words and redirections of a simple command, after those read so far. -/
def readSimple : Nat → Nat → Bool → List (List Piece) → List (List Piece) → List Redirect →
    Read Command
  | 0, _, _, _, _, _ => Read.fail "end of file unexpected"
  | fuel + 1, line, leading, assignments, words, redirects => do
    Read.expect { shorthand := leading }
    match ← readToken fuel with
    | .word => do
      let word := (← get).word
      if leading && Word.isAssignment word then
        readSimple fuel line true (word :: assignments) words redirects
      else readSimple fuel line false assignments (word :: words) redirects
    | .redirection => do
      let redirect ← readTarget fuel
      readSimple fuel line leading assignments words (redirect :: redirects)
    | t => do
      let done : Command := .simple line assignments.reverse words.reverse redirects.reverse
      match t, words, assignments.isEmpty && redirects.isEmpty with
      | .leftParen, [word], true => do
        readExpected fuel .rightParen
        match (Word.plain? word).filter fun w => isName w && !isSpecialName w with
        | none => Read.fail "Bad function name"
        | some name => do
          Read.expect .laterCommand
          let line := (← get).line
          let body ← readCommand fuel
          return .define line name body
      | _, _, _ => do
        Read.pushBack
        return done

end

/-- A text as a word between double quotes. -/
def readQuoted (text : String) : Except SyntaxError (Word × Reader) :=
  let h : HereText :=
    { number := 0, delimiter := [Read.aliasEnd], strips := false, verbatim := false }
  let input := text.toList
  let act : Read Word := do
    let (d, _) ← readPieces (some h) (16 * input.length + 64)
        { frames := [{ mode := .double, doubled := true }] }
    return d.pieces.reverse
  act.run { input }

/-- The commands of a line and what came of reading them. `none` is the end of the script. -/
def readLineFrom (r : Reader) : Except SyntaxError (Option Command × Reader) :=
  let fuel := 16 * r.input.length + 64
  let act : Read (Option Command) := do
    modify fun r => { r with isPushedBack := false, checks := {}, expected := [], sawEnd := false }
    let command ← readList fuel false true
    let r ← get
    return match command with
      | .nothing => if r.isPushedBack && r.last = .endOfFile then none else some .nothing
      | command => some command
  act.run r

end CommandShell.Script
