/-!
# Shell scripts

The commands of the script language, as they are read and before anything is expanded.
-/

namespace CommandShell.Script

/-- How the value of a parameter is used. -/
inductive Use where
  | value
  | length
  /-- The word stands in for a parameter that is unset or, after a colon, empty. -/
  | orElse (colon : Bool)
  /-- The word also becomes the value of the parameter. -/
  | orAssign (colon : Bool)
  /-- The word stands in for a parameter that is set or, after a colon, not empty. -/
  | ifSet (colon : Bool)
  /-- The word is the error if the parameter is unset or, after a colon, empty. -/
  | orFail (colon : Bool)
  /-- The value without what the word matches at its start or its end. -/
  | trim (atEnd longest : Bool)
  /-- No known use. -/
  | bad
  deriving DecidableEq, Repr

/-- The kinds of redirection to a file. -/
inductive FileUse where
  | input
  | output
  /-- Write, whatever is there. -/
  | overwrite
  | append
  | both
  deriving DecidableEq, Repr

mutual

/-- A part of a word. -/
inductive Piece where
  /-- Characters as they stand there; escaped ones have no special meaning. -/
  | text (text : String) (escaped : Bool)
  /-- Quotes begin or end. -/
  | mark
  | parameter (name : String) (use : Use) (word : List Piece)
  | arithmetic (expression : List Piece)
  | substitution (body : Command)

/-- Where a redirection leads. -/
inductive Target where
  | file (use : FileUse) (name : List Piece)
  /-- Where another descriptor leads. -/
  | descriptor (n : Nat)
  | closed
  /-- Where the descriptor leads that the word names. -/
  | named (word : List Piece)
  /-- A text that follows the command, known by its number. -/
  | here (number : Nat)

inductive Redirect where
  | mk (descriptor : Nat) (target : Target)

inductive Command where
  | nothing
  | simple (line : Nat) (assignments words : List (List Piece)) (redirects : List Redirect)
  | pipeline (commands : List Command) (background : Bool)
  | redirected (line : Nat) (body : Command) (redirects : List Redirect)
  | background (line : Nat) (body : Command) (redirects : List Redirect)
  | subshell (line : Nat) (body : Command) (redirects : List Redirect)
  | negated (command : Command)
  | sequence (first second : Command)
  | both (first second : Command)
  | either (first second : Command)
  | conditional (test yes no : Command)
  | loop (whileTrue : Bool) (test body : Command)
  | each (line : Nat) (name : String) (words : List (List Piece)) (body : Command)
  | choice (line : Nat) (subject : List Piece) (arms : List (List (List Piece) × Command))
  | define (line : Nat) (name : String) (body : Command)

end

abbrev Word := List Piece

instance : Inhabited Command := ⟨.nothing⟩

namespace Word

/-- The text of a word that stands there without any quotes and expansions. -/
def plain? : Word → Option String
  | [] => some ""
  | [.text t false] => some t
  | _ => none

/-- The text of a word with quotes removed; expansions leave nothing. -/
def bare (w : Word) : String :=
  String.join (w.map fun
    | .text t _ => t
    | _ => "")

/-- Whether a word begins with a name and an equals sign. -/
def isAssignment (w : Word) : Bool :=
  match w with
  | .text t false :: _ =>
    match t.toList with
    | c :: cs =>
      (c.isAlpha || c == '_') && (cs.dropWhile fun c => c.isAlphanum || c == '_').head? == some '='
    | [] => false
  | _ => false

end Word

end CommandShell.Script
