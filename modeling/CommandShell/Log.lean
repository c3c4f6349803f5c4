import CommandShell.Fault

/-!
# Diagnostics log

The log keeps the newest records up to its capacity. It may also echo every record from some level
on to a stream; `Log.record` returns what is echoed and leaves the writing to its caller. `τ` names
streams.
-/

namespace CommandShell

namespace Log

inductive Level where
  | debug
  | info
  | warning
  | error
  deriving DecidableEq, Repr

namespace Level

def rank : Level → Nat
  | .debug => 0
  | .info => 1
  | .warning => 2
  | .error => 3

def name : Level → String
  | .debug => "DEBUG"
  | .info => "INFO"
  | .warning => "WARNING"
  | .error => "ERROR"

/-- The levels from the least severe on. -/
def all : List Level := [.debug, .info, .warning, .error]

/-- Whether `l` is at least as severe as `least`. -/
def atLeast (least l : Level) : Bool := least.rank ≤ l.rank

/-- The capital of a letter, as far as the names of levels can tell: those of ASCII, and the dotless
i. -/
def capital (c : Char) : Char := if c = 'ı' then 'I' else c.toUpper

/-- The level of a name, whatever the case of its letters. -/
def ofName? (name : String) : Option Level :=
  all.find? fun l => l.name.toList == name.toList.map capital

end Level

/-- One record. -/
structure Entry where
  level : Level
  message : String
  source : String
  /-- The process that the record is about. -/
  pid : Option Int := none
  deriving DecidableEq, Repr

/-- A record on one line. -/
def Entry.text (e : Entry) : String :=
  let process := match e.pid with
    | none => ""
    | some pid => "[" ++ toString pid ++ "]"
  "[" ++ e.level.name ++ "] " ++ e.source ++ process ++ ": " ++ e.message

/-- A stream that records are echoed to, from some level on. -/
structure Echo (τ : Type) where
  stream : τ
  least : Level := .warning
  deriving DecidableEq, Repr

end Log

/-- The records kept, oldest first. -/
structure Log (τ : Type) where
  capacity : Nat := 1000
  entries : List Log.Entry := []
  echo : Option (Log.Echo τ) := none

namespace Log

variable {τ : Type}

/-- One more than the largest capacity. -/
def capacityLimit : Nat := 0x8000000000000000

/-- A log of a given capacity. -/
def ofCapacity (capacity : Int) : Except Fault (Log τ) :=
  if capacity < -capacityLimit || capacityLimit ≤ capacity then .error .hugeCapacity
  else if capacity < 0 then .error .negativeCapacity
  else .ok { capacity := capacity.toNat }

/-- The newest entries that fit. -/
def keepNewest (capacity : Nat) (entries : List Entry) : List Entry :=
  entries.drop (entries.length - capacity)

/-- Add a record; the line to be echoed and its stream come with the new log. -/
def record (log : Log τ) (e : Entry) : Log τ × Option (τ × String) :=
  ({ log with entries := keepNewest log.capacity (log.entries ++ [e]) },
   match log.echo with
   | some echo => if echo.least.atLeast e.level then some (echo.stream, e.text ++ "\n") else none
   | none => none)

/-- Echo records to a stream from now on, or to none. -/
def echoTo (log : Log τ) (echo : Option (Echo τ)) : Log τ := { log with echo := echo }

def clear (log : Log τ) : Log τ := { log with entries := [] }

/-- The entries from some level on and from one source. -/
def filter (log : Log τ) (least : Option Level) (source : Option String) : List Entry :=
  log.entries.filter fun e =>
    least.all (fun l => l.atLeast e.level) && source.all (fun s => e.source == s)

@[simp] theorem entries_clear (log : Log τ) : log.clear.entries = [] := rfl

@[simp] theorem echo_clear (log : Log τ) : log.clear.echo = log.echo := rfl

@[simp] theorem entries_echoTo (log : Log τ) (echo : Option (Echo τ)) :
    (log.echoTo echo).entries = log.entries := rfl

theorem length_keepNewest (capacity : Nat) (entries : List Entry) :
    (keepNewest capacity entries).length = min capacity entries.length := by
  simp [keepNewest]; omega

end Log

end CommandShell
