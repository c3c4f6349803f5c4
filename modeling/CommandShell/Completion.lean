import CommandShell.Lookup
import CommandShell.Text.Blank
import CommandShell.Text.Order

/-!
# Completion of command names

The word before the cursor is completed when it is the first of its line. The candidates are the
builtins and the executable files of the search path that start with it, in the order of their code
points.
-/

namespace CommandShell.Completion

/-- The longest start that two texts share. -/
def shared : List Char → List Char → List Char
  | a :: as, b :: bs => if a = b then a :: shared as bs else []
  | _, _ => []

/-- The longest start that all texts of an ordered list share: the one shared by the first and the
last. -/
def sharedStart (names : List String) : String :=
  match names.head?, names.getLast? with
  | some first, some last => String.ofList (shared first.toList last.toList)
  | _, _ => ""

/-- What is to be done with the line. -/
inductive Kind where
  | noMatch
  | complete
  | extend
  | list
  | suppressed
  deriving DecidableEq, Repr

structure Proposal where
  kind : Kind
  /-- The word that is completed. -/
  word : String
  /-- What the word is replaced by; empty if it stays. -/
  insertion : String := ""
  candidates : List String := []
  deriving DecidableEq, Repr

/-- The commands that are known: builtins and executable files of the search path. -/
def commandNames (w : World) (builtins directories : List String) : Except Fault (List String) :=
  directories.foldl (fun names d => do
    let names ← names
    return names ++ (← Lookup.executablesIn w d)) (.ok builtins)

/-- The text before the last space and the text after it. -/
def splitLast (line : List Char) : List Char × List Char :=
  let tail := line.reverse.takeWhile (· != ' ')
  ((line.reverse.dropWhile (· != ' ')).drop 1 |>.reverse, tail.reverse)

/-- The proposal for a word, given the names that start with it, in order. -/
def choose (word : String) (hits : List String) : Proposal :=
  match hits with
  | [] => { kind := .noMatch, word }
  | [name] => { kind := .complete, word, insertion := name ++ " ", candidates := hits }
  | _ =>
    let start := sharedStart hits
    if word.toList.length < start.toList.length then
      { kind := .extend, word, insertion := start, candidates := hits }
    else { kind := .list, word, candidates := hits }

/-- How the line left of the cursor is completed. -/
def propose (w : World) (builtins directories : List String) (line : String) :
    Except Fault Proposal :=
  let (head, word) := splitLast line.toList
  let word := String.ofList word
  if !head.all Text.isBlank then .ok { kind := .suppressed, word }
  else
    (commandNames w builtins directories).map fun names =>
      choose word (Text.inOrder (names.filter fun name => word.toList.isPrefixOf name.toList))

/-- The bell. -/
def bell : String := "\x07"

/-- What is shown for a proposal: a bell if there is nothing to insert, and the candidates if there
are several. -/
def shown (prompt line : String) (p : Proposal) : String :=
  match p.kind with
  | .noMatch => bell
  | .list => bell ++ "\n" ++ String.intercalate "  " p.candidates ++ "\n" ++ prompt ++ line
  | _ => ""

/-- The replacement that is offered under a number: only the first may be there. -/
def offered (p : Proposal) (number : Int) : Option String :=
  if number = 0 && p.insertion != "" then some p.insertion else none

end CommandShell.Completion
