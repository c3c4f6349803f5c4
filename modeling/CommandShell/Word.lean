/-!
# Words

A command line is read as words. A word remembers whether some part of it was quoted or escaped,
because a quoted word is data: it is never read as an operator.
-/

namespace CommandShell

/-- A word of a command line. -/
structure Word where
  text : String
  /-- Some part of the word was quoted or escaped. -/
  quoted : Bool := false
  deriving DecidableEq, Repr, Inhabited

namespace Word

/-- A word that was typed without quoting. -/
def bare (text : String) : Word := ⟨text, false⟩

end Word

end CommandShell
