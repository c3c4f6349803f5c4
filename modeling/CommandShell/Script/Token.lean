import CommandShell.Script.Command

/-!
# Tokens

The tokens of the script language, and the reader that takes them from a text. The reader keeps the
last token, which can be pushed back, and the word that came with it.
-/

namespace CommandShell.Script

inductive Token where
  | endOfFile
  | newline
  | semicolon
  | background
  | andIf
  | orIf
  | pipe
  | leftParen
  | rightParen
  | endCase
  | redirection
  | word
  | not
  | case
  | do
  | done
  | elif
  | else
  | esac
  | fi
  | for
  | if
  | in
  | then
  | until
  | while
  | begin
  | end
  deriving DecidableEq, Repr

namespace Token

/-- The words that are tokens of their own where a command may begin. -/
def reserved : List (String × Token) :=
  [("!", .not), ("case", .case), ("do", .do), ("done", .done), ("elif", .elif), ("else", .else),
   ("esac", .esac), ("fi", .fi), ("for", .for), ("if", .if), ("in", .in), ("then", .then),
   ("until", .until), ("while", .while), ("\x7b", .begin), ("\x7d", .end)]

/-- A token in an error message. -/
def text : Token → String
  | .endOfFile => "end of file"
  | .newline => "newline"
  | .semicolon => "\";\""
  | .background => "\"&\""
  | .andIf => "\"&&\""
  | .orIf => "\"||\""
  | .pipe => "\"|\""
  | .leftParen => "\"(\""
  | .rightParen => "\")\""
  | .endCase => "\";;\""
  | .redirection => "redirection"
  | .word => "word"
  | t => "\"" ++ ((reserved.find? fun r => r.2 = t).map Prod.fst).getD "" ++ "\""

/-- Whether a token ends a list of commands. -/
def endsList : Token → Bool
  | .endOfFile | .rightParen | .endCase | .do | .done | .elif | .else | .esac | .fi | .then
  | .end => true
  | _ => false

end Token

/-- What a word is checked for when it is read. -/
structure Checks where
  reserved : Bool := false
  /-- Ends of lines are skipped. -/
  newline : Bool := false
  shorthand : Bool := false
  /-- The word ends a text that follows the command. -/
  delimiter : Bool := false

namespace Checks

/-- Where a command begins. -/
def command : Checks := { reserved := true, shorthand := true }

/-- Where a command begins, perhaps on a later line. -/
def laterCommand : Checks := { reserved := true, newline := true, shorthand := true }

end Checks

/-- A text that is to follow the command. -/
structure HereText where
  number : Nat
  delimiter : List Char
  /-- Tabs at the start of its lines are dropped. -/
  strips : Bool
  /-- The text is taken as it is. -/
  verbatim : Bool

/-- A redirection that has been read up to its operator. -/
inductive Operator where
  | file (use : FileUse)
  | duplicate
  | here (strips : Bool)

/-- An error in a script. -/
structure SyntaxError where
  line : Nat
  message : String
  /-- The input after the error. -/
  unread : List Char := []
  /-- The end of the input was reached before the error was clear. -/
  sawEnd : Bool := false
  deriving DecidableEq, Repr

structure Reader where
  input : List Char
  line : Nat := 1
  last : Token := .endOfFile
  isPushedBack : Bool := false
  checks : Checks := {}
  /-- The last word, and whether some of it was quoted. -/
  word : List Piece := []
  quoted : Bool := false
  /-- The last redirection. -/
  descriptor : Nat := 0
  operator : Operator := .duplicate
  /-- Texts that are to follow the line. -/
  expected : List HereText := []
  /-- Texts that have followed commands. -/
  texts : List (Nat × List Piece) := []
  nextText : Nat := 0
  aliases : List (String × String) := []
  /-- The aliases that the input comes from, and whether each ends in a blank. -/
  inside : List (String × Bool) := []
  /-- The end of the input was reached. -/
  sawEnd : Bool := false

abbrev Read := StateT Reader (Except SyntaxError)

namespace Read

/-- The character after the text of an alias; no script holds it. -/
def aliasEnd : Char := Char.ofNat 0x100

/-- The input no longer comes from the innermost alias. After an alias that ends in a blank the next
word may be one as well. -/
def leaveAlias (r : Reader) : Reader :=
  { r with
    inside := r.inside.drop 1
    checks := { r.checks with
      shorthand := r.checks.shorthand || (r.inside.head?.map Prod.snd).getD false } }

/-- Take marks of the ends of aliases off the input. -/
def leaveAliases : List Char → Reader → Reader
  | [], r => { r with input := [] }
  | c :: rest, r =>
    if c = aliasEnd then leaveAliases rest (leaveAlias r)
    else { r with input := c :: rest }

/-- Take the rest of a line off the input, whatever aliases end in it. -/
def dropLine : List Char → Reader → Reader
  | [], r => { r with input := [] }
  | c :: rest, r =>
    if c = '\n' then { r with input := c :: rest }
    else dropLine rest (if c = aliasEnd then leaveAlias r else r)

/-- Whether the text of an alias ends here. -/
def atAliasEnd : Read Bool := return (← get).input.head? == some aliasEnd

/-- Take the next character. -/
def char? : Read (Option Char) := modifyGet fun r =>
  let r := leaveAliases r.input r
  match r.input with
  | [] => (none, { r with sawEnd := true })
  | c :: rest => (some c, { r with input := rest })

/-- Put a character back. -/
def putBack : Option Char → Read Unit
  | some c => modify fun r => { r with input := c :: r.input }
  | none => pure ()

def dropJoins : List Char → Nat → List Char × Nat
  | '\\' :: '\n' :: rest, n => dropJoins rest (n + 1)
  | cs, n => (cs, n)

/-- Take the next character, over the ends of lines after a backslash. -/
def joined? : Read (Option Char) := do
  modify fun r =>
    let r := leaveAliases r.input r
    match r.input with
    | '\\' :: _ =>
      let (input, line) := dropJoins r.input r.line
      { r with input, line, sawEnd := r.sawEnd || input = ['\\'] }
    | _ => r
  char?

/-- Take characters as long as they pass a test. -/
def span (test : Char → Bool) : Read (List Char) := modifyGet fun r =>
  let taken := r.input.takeWhile test
  (taken, { r with input := r.input.drop taken.length })

def newLine : Read Unit := modify fun r => { r with line := r.line + 1 }

def fail {α : Type} (message : String) : Read α := do
  let r ← get
  throw { line := r.line, message, unread := r.input, sawEnd := r.sawEnd }

/-- Read a text that stands in the input and has been taken off it. -/
def within {α : Type} (text : List Char) (act : Read α) : Read α := fun r =>
  match act { r with
      input := text, line := 1, isPushedBack := false, checks := {}, expected :=
        [], inside := [] } with
  | .ok (result, s) => .ok (result, { r with texts := s.texts, nextText := s.nextText })
  | .error e => .error { e with unread := r.input, sawEnd := r.sawEnd }

/-- The last token was not expected; perhaps another one was. -/
def unexpected {α : Type} (wanted : Option Token := none) : Read α := do
  let got := (← get).last.text
  match wanted with
  | some t => fail (got ++ " unexpected (expecting " ++ t.text ++ ")")
  | none => fail (got ++ " unexpected")

def pushBack : Read Unit := modify fun r => { r with isPushedBack := true }

/-- What the next word is checked for. -/
def expect (checks : Checks) : Read Unit := modify fun r => { r with checks }

end Read

end CommandShell.Script
