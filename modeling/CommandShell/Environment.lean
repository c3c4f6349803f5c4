/-!
# Environments

The variables of a session, in the order in which they were first set.
-/

namespace CommandShell

structure Environment where
  bindings : List (String × String) := []
  deriving DecidableEq, Repr

namespace Environment

/-- The value of a variable. -/
def get? (env : Environment) (name : String) : Option String :=
  (env.bindings.find? fun v => v.1 = name).map Prod.snd

/-- The value of a variable that is set to more than the empty text. -/
def nonempty? (env : Environment) (name : String) : Option String :=
  (env.get? name).filter (· != "")

def setVariable (bindings : List (String × String)) (name value : String) :
    List (String × String) :=
  match bindings with
  | [] => [(name, value)]
  | (n, v) :: rest => if n = name then (n, value) :: rest else (n, v) :: setVariable rest name value

def set (env : Environment) (name value : String) : Environment :=
  ⟨setVariable env.bindings name value⟩

def erase (env : Environment) (name : String) : Environment :=
  ⟨env.bindings.filter fun v => v.1 ≠ name⟩

end Environment

end CommandShell
