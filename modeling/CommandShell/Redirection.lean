import CommandShell.Channel
import CommandShell.Word

/-!
# Redirections

Seven operators route the output of a command into files. They are matched in a fixed order, so that
a longer operator is never read as a shorter one with something glued on. The file may follow as the
next word or be glued on. A later operator for a channel replaces an earlier one, and a quoted word
is never an operator.
-/

namespace CommandShell

/-- How a file is opened for writing. -/
inductive OpenMode where
  | truncate
  | append
  deriving DecidableEq, Repr

/-- A file that receives output. -/
structure FileTarget where
  mode : OpenMode
  path : String
  deriving DecidableEq, Repr

/-- Where the errors of a command go: into a file, or wherever its output goes. -/
inductive ErrorTarget where
  | file (target : FileTarget)
  | merge
  deriving DecidableEq, Repr

/-- The redirections of one command. -/
structure Redirections where
  out : Option FileTarget := none
  err : Option ErrorTarget := none
  deriving DecidableEq, Repr

namespace Redirections

/-- Whether some channel is redirected. -/
def any (r : Redirections) : Bool := r.out.isSome || r.err.isSome

/-- Whether errors follow the output. -/
def merges (r : Redirections) : Bool := r.err == some .merge

end Redirections

namespace Redirection

/-- What an operator does. -/
inductive Effect where
  | toFile (channel : Channel) (mode : OpenMode)
  | merge
  deriving DecidableEq, Repr

structure Operator where
  spelling : String
  effect : Effect
  deriving DecidableEq, Repr

/-- The operators in the order in which they are matched. -/
def operators : List Operator :=
  [⟨"2>&1", .merge⟩,
   ⟨"2>>", .toFile .err .append⟩,
   ⟨"2>", .toFile .err .truncate⟩,
   ⟨"1>>", .toFile .out .append⟩,
   ⟨">>", .toFile .out .append⟩,
   ⟨"1>", .toFile .out .truncate⟩,
   ⟨">", .toFile .out .truncate⟩]

/-- The operator that an unquoted word starts with. -/
def operatorOf? (w : Word) : Option Operator :=
  if w.quoted then none
  else operators.find? fun o => o.spelling.toList.isPrefixOf w.text.toList

/-- What follows the operator inside its word. -/
def glued (o : Operator) (w : Word) : String :=
  String.ofList (w.text.toList.drop o.spelling.toList.length)

/-- An operator stands last and names no file. -/
structure MissingOperand where
  operator : String
  deriving DecidableEq, Repr

def MissingOperand.message (e : MissingOperand) : String :=
  "syntax error: missing file operand after '" ++ e.operator ++ "'"

/-- Record a file for a channel. -/
def assign (r : Redirections) : Channel → FileTarget → Redirections
  | .out, t => { r with out := some t }
  | .err, t => { r with err := some (.file t) }

/-- Take the operators out of a list of words, on top of the redirections found so far. -/
def extractFrom (r : Redirections) : List Word → Except MissingOperand (List Word × Redirections)
  | [] => .ok ([], r)
  | w :: rest =>
    match operatorOf? w with
    | none => (extractFrom r rest).map fun (args, r') => (w :: args, r')
    | some ⟨spelling, .merge⟩ =>
      if w.text = spelling then extractFrom { r with err := some .merge } rest
      else (extractFrom r rest).map fun (args, r') => (w :: args, r')
    | some ⟨spelling, .toFile channel mode⟩ =>
      if w.text = spelling then
        match rest with
        | [] => .error ⟨spelling⟩
        | operand :: rest' => extractFrom (assign r channel ⟨mode, operand.text⟩) rest'
      else
        extractFrom (assign r channel ⟨mode, glued ⟨spelling, .toFile channel mode⟩ w⟩) rest

/-- The arguments among the words of a command, and its redirections. -/
def extract (words : List Word) : Except MissingOperand (List Word × Redirections) :=
  extractFrom {} words

end Redirection

end CommandShell
