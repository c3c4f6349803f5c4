import CommandShell.Text.Utf8

/-!
# The output pump

Readers put what programs write into one queue, each chunk with the name of the sink that it is for,
and at the end of a stream a mark. The consumer takes items out until it has seen the end of every
stream that was attached; it may be interrupted between two items and be called again. `κ` names
sinks.
-/

namespace CommandShell

structure Pump (κ : Type) where
  /-- Chunks and, as `none`, ends of streams. -/
  queue : List (κ × Option Bytes) := []
  /-- How many streams have not been seen to end. -/
  active : Nat := 0

namespace Pump

variable {κ σ : Type}

/-- A stream begins. -/
def attach (p : Pump κ) : Pump κ := { p with active := p.active + 1 }

/-- A reader has read a chunk for a sink. -/
def post (p : Pump κ) (sink : κ) (chunk : Bytes) : Pump κ :=
  { p with queue := p.queue ++ [(sink, some chunk)] }

/-- A reader has come to the end of its stream. -/
def finish (p : Pump κ) (sink : κ) : Pump κ := { p with queue := p.queue ++ [(sink, none)] }

/-- Why the consumer stopped. -/
inductive Stop where
  /-- Every stream has ended; `left` steps of the budget are left. -/
  | drained (left : Option Nat)
  /-- The budget was used up. -/
  | interrupted
  /-- A stream has not ended, but nothing is queued. -/
  | starved
  deriving DecidableEq, Repr

/-- Take items out of a queue and write the chunks, until `active` ends have been seen. A budget
limits the number of items. -/
def drainQueue (write : κ → Bytes → σ → σ) :
    List (κ × Option Bytes) → Option Nat → Nat → σ → Pump κ × σ × Stop
  | queue, budget, 0, state => (⟨queue, 0⟩, state, .drained budget)
  | queue, some 0, active + 1, state => (⟨queue, active + 1⟩, state, .interrupted)
  | [], _, active + 1, state => (⟨[], active + 1⟩, state, .starved)
  | (_, none) :: queue, budget, active + 1, state =>
    drainQueue write queue (budget.map (· - 1)) active state
  | (sink, some chunk) :: queue, budget, active + 1, state =>
    drainQueue write queue (budget.map (· - 1)) (active + 1) (write sink chunk state)

/-- Write what is queued until every stream has ended. -/
def drain (write : κ → Bytes → σ → σ) (p : Pump κ) (budget : Option Nat) (state : σ) :
    Pump κ × σ × Stop :=
  drainQueue write p.queue budget p.active state

@[simp] theorem active_attach (p : Pump κ) : p.attach.active = p.active + 1 := rfl

@[simp] theorem active_post (p : Pump κ) (sink : κ) (chunk : Bytes) :
    (p.post sink chunk).active = p.active := rfl

@[simp] theorem active_finish (p : Pump κ) (sink : κ) : (p.finish sink).active = p.active := rfl

end Pump

end CommandShell
