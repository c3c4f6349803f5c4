import CommandShell.Builtin
import CommandShell.Redirection
import CommandShell.Word.Segment

/-!
# Stages

A line is read as a pipeline: one stage for each of its segments. A stage is a command with its
arguments and redirections; its name has been looked up.
-/

namespace CommandShell

namespace Stage

/-- What a stage runs. -/
inductive Target where
  | builtin (b : Builtin)
  /-- A program, if one was found. -/
  | program (path : Option Path)
  deriving DecidableEq, Repr

end Stage

structure Stage where
  command : String
  args : List String
  target : Stage.Target
  /-- The segment of the line. -/
  text : String
  redirections : Redirections := {}
  deriving DecidableEq, Repr

namespace Stage

def isBuiltin (s : Stage) : Bool :=
  match s.target with
  | .builtin _ => true
  | .program _ => false

/-- Why a line is no pipeline. -/
inductive LineError where
  | emptySegment
  | missingOperand (e : Redirection.MissingOperand)
  | noCommand (segment : String)
  deriving DecidableEq, Repr

def LineError.message : LineError → String
  | .emptySegment => "syntax error near unexpected token `|'"
  | .missingOperand e => e.message
  | .noCommand segment => "syntax error: no command in '" ++ segment ++ "'"

/-- What a command name runs in a session. -/
def targetOf (s : Session) (name : String) : Target :=
  match Builtin.resolveIn s name, Builtin.ofName? name with
  | .builtin, some b => .builtin b
  | r, _ => .program r.path?

/-- The stage of a segment. -/
def ofSegment (s : Session) (segment : String) : Except LineError Stage :=
  match Redirection.extract (Word.tokenize segment) with
  | .error e => .error (.missingOperand e)
  | .ok ([], _) => .error (.noCommand segment)
  | .ok (name :: args, redirections) =>
    .ok { command := name.text, args := args.map Word.text, target := targetOf s name.text,
          text := segment, redirections }

/-- The stages of the segments; the first faulty segment is reported. -/
def ofSegments (s : Session) : List String → Except LineError (List Stage)
  | [] => .ok []
  | segment :: rest =>
    match ofSegment s segment with
    | .error e => .error e
    | .ok stage => (ofSegments s rest).map (stage :: ·)

/-- The stages of a line: none for a blank line. -/
def parse (s : Session) (line : String) : Except LineError (List Stage) :=
  match Word.segments line with
  | [""] => .ok []
  | segments =>
    if segments.any (· == "") then .error .emptySegment else ofSegments s segments

end Stage

end CommandShell
