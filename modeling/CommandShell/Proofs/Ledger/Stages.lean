import CommandShell.Proofs.Ledger.Replay
import Mathlib.Logic.Function.Basic

/-!
# The life of a stage

A stage is found or not, started or refused, waited for or called, and at last it is settled: there
is a cause for its result. `StageState.Step` allows nothing else. `Ledger.Tells` is the invariant of
a run: the ledger says how far each stage has got.

## Main statements

- `causeIn_of_lives`: what the history tells of a stage is how far the stage has got.
- `Ledger.Tells.complete`, `Ledger.Tells.finish`: what the entries of the ledger do to a stage.
-/

namespace CommandShell.Pipeline

/-- Why the result of a stage is what it is. -/
inductive Cause where
  | missing
  | refused
  | ended (pid : Nat) (e : Exit)
  | returned (ending : Except Halt Int)
  /-- An earlier builtin was interrupted. -/
  | skipped

/-- The status and the process that a cause stands for; a fault stands for none. -/
def Cause.verdict : Cause → Option (Int × Option Nat)
  | .missing => some (statusNotFound, none)
  | .refused => some (statusCannotRun, none)
  | .ended pid e => some (e.status, some pid)
  | .returned (.ok status) => some (status, none)
  | .returned (.error (.exit code)) => some (code, none)
  | .returned (.error .interrupt) => some (statusInterrupted, none)
  | .returned (.error (.fault _)) => none
  | .skipped => some (statusInterrupted, none)

/-- How far a stage has got. -/
inductive StageState where
  | idle
  | running (pid : Nat)
  | called
  /-- The cause of a result is known, and the result is to be written down. -/
  | due (c : Cause)
  | settled (c : Cause)

/-- The stage that an event is about. -/
def Event.stage? : Event → Option Nat
  | .missing i | .refused i | .started i _ | .called i | .returned i _ | .awaited i _ _
  | .recorded i _ _ => some i
  | _ => none

/-- What an event may do to a stage. A program that has been waited for may be waited for again, and
a builtin may be settled without a call. -/
inductive StageState.Step (i : Nat) : StageState → Event → StageState → Prop
  | other {s : StageState} {event : Event} (h : event.stage? ≠ some i) : Step i s event s
  | missing : Step i .idle (.missing i) (.due .missing)
  | refused : Step i .idle (.refused i) (.due .refused)
  | started (pid : Nat) : Step i .idle (.started i pid) (.running pid)
  | called : Step i .idle (.called i) .called
  | skipped {result : StageResult} (h : Cause.skipped.verdict = some (result.status, result.pid))
    (remaining : Nat) : Step i .idle (.recorded i result remaining) (.settled .skipped)
  | awaited (pid : Nat) (e : Exit) :
    Step i (.running pid) (.awaited i pid (some e)) (.due (.ended pid e))
  | again (pid : Nat) (e e' : Exit) :
    Step i (.settled (.ended pid e')) (.awaited i pid (some e)) (.due (.ended pid e))
  | returned (ending : Except Halt Int) :
    Step i .called (.returned i ending) (.due (.returned ending))
  | recorded {c : Cause} {result : StageResult} (h : c.verdict = some (result.status, result.pid))
    (remaining : Nat) : Step i (.due c) (.recorded i result remaining) (.settled c)

/-- A stage gets so far in a history. -/
inductive Lives (i : Nat) : List Event → StageState → Prop
  | nil : Lives i [] .idle
  | concat {past : List Event} {s t : StageState} {event : Event} (h : Lives i past s)
    (hs : StageState.Step i s event t) : Lives i (past ++ [event]) t

/-- The program that a cause is about. -/
def Cause.process? : Cause → Option Nat
  | .ended pid _ => some pid
  | _ => none

/-- Whether a builtin was called for a cause. -/
def Cause.isCalled : Cause → Bool
  | .returned _ => true
  | _ => false

namespace StageState

/-- The cause of a result that is written down or is to be written down. -/
def cause : StageState → Cause
  | .due c | .settled c => c
  | _ => .skipped

/-- The program of a stage, once it has been started. -/
def process? : StageState → Option Nat
  | .running pid => some pid
  | .due c | .settled c => c.process?
  | _ => none

/-- Whether the builtin of a stage has been called. -/
def isCalled : StageState → Bool
  | .called => true
  | .due c | .settled c => c.isCalled
  | _ => false

/-- What an interrupt of a builtin makes of a builtin. -/
def interrupted : StageState → StageState
  | .idle => .settled .skipped
  | .due c => .settled c
  | s => s

end StageState

/-- What an event says about how a stage has ended. -/
def Event.cause? (i : Nat) : Event → Option Cause
  | .missing j => if j = i then some .missing else none
  | .refused j => if j = i then some .refused else none
  | .awaited j pid exit => if j = i then exit.map (.ended pid) else none
  | .returned j ending => if j = i then some (.returned ending) else none
  | _ => none

/-- How a stage has ended, as the last event tells that says something about it. A stage of which
nothing is told has been skipped. -/
def causeIn (history : List Event) (i : Nat) : Cause :=
  history.foldl (fun c event => (event.cause? i).getD c) .skipped

theorem causeIn_concat (past : List Event) (event : Event) (i : Nat) :
    causeIn (past ++ [event]) i = (event.cause? i).getD (causeIn past i) := by
  simp [causeIn]

section Lives

variable {i : Nat} {history : List Event} {s : StageState}

/-- An event that leaves a mark has happened when the mark is there. -/
theorem mem_iff_of_lives {x : Event} (mark : StageState → Prop) (hx : x.stage? = some i)
    (hidle : ¬ mark .idle)
    (hstep : ∀ s event t, StageState.Step i s event t → event.stage? = some i →
      (mark t ↔ mark s ∨ x = event)) (h : Lives i history s) : x ∈ history ↔ mark s := by
  induction h with
  | nil => simpa using hidle
  | @concat past s t event _ hs ih =>
    rw [List.mem_append, ih, List.mem_singleton]
    by_cases hi : event.stage? = some i
    · exact (hstep s event t hs hi).symm
    · cases hs with
      | other =>
        have hne : x ≠ event := by
          rintro rfl
          exact hi hx
        simp [hne]
      | _ => exact absurd rfl hi

theorem started_mem_iff (h : Lives i history s) (pid : Nat) :
    .started i pid ∈ history ↔ s.process? = some pid := by
  refine mem_iff_of_lives (fun s => s.process? = some pid) rfl (by simp [StageState.process?])
    (fun s event t hs hi => ?_) h
  cases hs with
  | other hne => exact absurd hi hne
  | _ => simp [StageState.process?, Cause.process?, eq_comm]

theorem called_mem_iff (h : Lives i history s) : .called i ∈ history ↔ s.isCalled := by
  refine mem_iff_of_lives (fun s => s.isCalled) rfl (by simp [StageState.isCalled])
    (fun s event t hs hi => ?_) h
  cases hs with
  | other hne => exact absurd hi hne
  | _ => simp [StageState.isCalled, Cause.isCalled]

/-- What the history tells of a stage is how far the stage has got. -/
theorem causeIn_of_lives (h : Lives i history s) : causeIn history i = s.cause := by
  induction h with
  | nil => rfl
  | @concat past s t event _ hs ih =>
    rw [causeIn_concat, ih]
    cases hs with
    | other hne =>
      have hnone : event.cause? i = none := by
        cases event <;> simp_all [Event.cause?, Event.stage?]
      rw [hnone, Option.getD_none]
    | skipped => rfl
    | recorded => rfl
    | _ => simp [Event.cause?, StageState.cause]

end Lives

/-- The result of a stage that has got so far; while a program is waited for again, there may be
one. -/
def StageState.Agrees (command : String) (result : Option StageResult) : StageState → Prop
  | .settled c => ∃ v, c.verdict = some v ∧ result = some { command, status := v.1, pid := v.2 }
  | .due (.ended _ _) => True
  | _ => result = none

namespace Ledger

/-- The ledger says how far each stage has got. -/
structure Tells (l : Ledger) (st : Nat → StageState) : Prop where
  counted : l.Counted
  lives : ∀ i, Lives i l.history (st i)
  results : ∀ i stage, l.stages[i]? = some stage →
    ∃ result, l.results[i]? = some result ∧ (st i).Agrees stage.command result
  jobs : ∀ i pid, { index := i, pid : Job } ∈ l.jobs ↔ (st i).process? = some pid
  beyond : ∀ i, l.stages[i]? = none → st i = .idle

namespace Tells

variable {l l' : Ledger} {st : Nat → StageState} {i : Nat}

/-- A program is one of a stage. -/
theorem exists_stage (h : l.Tells st) {pid : Nat} (hp : (st i).process? = some pid) :
    ∃ stage, l.stages[i]? = some stage := by
  by_contra hnone
  have hidle := h.beyond i (Option.eq_none_iff_forall_ne_some.mpr fun stage hs => hnone ⟨stage, hs⟩)
  simp [hidle, StageState.process?] at hp

/-- An event that is about no stage. -/
theorem aside (h : l.Tells st) (event : Event) (hevent : event.stage? = none)
    (hstages : l'.stages = l.stages) (hresults : l'.results = l.results)
    (hremaining : l'.remaining = l.remaining) (hjobs : l'.jobs = l.jobs)
    (hhistory : l'.history = l.history ++ [event]) : l'.Tells st where
  counted :=
    h.counted.note (by cases event <;> first | rfl | cases hevent) hstages hhistory hresults
    hremaining
  lives j := hhistory ▸ (h.lives j).concat (.other (by simp [hevent]))
  results := by
    rw [hstages, hresults]
    exact h.results
  jobs := hjobs ▸ h.jobs
  beyond := hstages ▸ h.beyond

theorem beyond_update (h : l.Tells st) {stage : Stage} (hstage : l.stages[i]? = some stage)
    (s : StageState) (j : Nat) (hj : l.stages[j]? = none) : Function.update st i s j = .idle := by
  have hne : j ≠ i := by
    rintro rfl
    simp [hstage] at hj
  rw [Function.update_of_ne hne]
  exact h.beyond j hj

/-- An event that is about a stage and writes down no result. -/
theorem event (h : l.Tells st) {stage : Stage} (hstage : l.stages[i]? = some stage) {x : Event}
    {s : StageState} (hs : StageState.Step i (st i) x s) (hi : x.stage? = some i)
    (hrecord : x.isRecord = false)
    (hagrees : ∀ command result, (st i).Agrees command result → s.Agrees command result)
    (hstages : l'.stages = l.stages) (hresults : l'.results = l.results)
    (hremaining : l'.remaining = l.remaining) (hhistory : l'.history = l.history ++ [x])
    (hjobs : ∀ j pid, { index := j, pid : Job } ∈ l'.jobs ↔
      (Function.update st i s j).process? = some pid) : l'.Tells (Function.update st i s) where
  counted := h.counted.note hrecord hstages hhistory hresults hremaining
  lives j := by
    rw [hhistory]
    by_cases hj : j = i
    · subst hj
      rw [Function.update_self]
      exact (h.lives j).concat hs
    · rw [Function.update_of_ne hj]
      exact (h.lives j).concat (.other (by simp [hi, Ne.symm hj]))
  results j stage hj := by
    rw [hstages] at hj
    obtain ⟨result, hget, hresult⟩ := h.results j stage hj
    refine ⟨result, hresults ▸ hget, ?_⟩
    by_cases hji : j = i
    · subst hji
      rw [Function.update_self]
      exact hagrees _ _ hresult
    · rwa [Function.update_of_ne hji]
  jobs := hjobs
  beyond := hstages ▸ h.beyond_update hstage s

theorem jobs_update (h : l.Tells st) {s : StageState} (hs : s.process? = (st i).process?)
    (j pid : Nat) : { index := j, pid : Job } ∈ l.jobs ↔
    (Function.update st i s j).process? = some pid := by
  rw [h.jobs, Function.update_apply]
  split
  · next hj => rw [hj, hs]
  · rfl

theorem note (h : l.Tells st) {stage : Stage} (hstage : l.stages[i]? = some stage) {x : Event}
    {s : StageState} (hs : StageState.Step i (st i) x s) (hi : x.stage? = some i)
    (hrecord : x.isRecord = false)
    (hagrees : ∀ command result, (st i).Agrees command result → s.Agrees command result)
    (hprocess : s.process? = (st i).process?) : (l.note x).Tells (Function.update st i s) :=
  h.event hstage hs hi hrecord hagrees rfl rfl rfl rfl (h.jobs_update hprocess)

/-- A result is written down for a cause. -/
theorem complete (h : l.Tells st) {stage : Stage} (hstage : l.stages[i]? = some stage) {c : Cause}
    {status : Int} {pid : Option Nat} (hc : c.verdict = some (status, pid))
    (hs : st i = .due c ∨ st i = .idle ∧ c = .skipped) :
    (l.complete i status pid).Tells (Function.update st i (.settled c)) := by
  have hcommand : (l.stages[i]?.map Stage.command).getD "" = stage.command := by simp [hstage]
  have hstep (remaining : Nat) : StageState.Step i (st i)
      (.recorded i { command := stage.command, status, pid } remaining) (.settled c) := by
    obtain hs | ⟨hs, rfl⟩ := hs <;> rw [hs]
    · exact .recorded hc remaining
    · exact .skipped hc remaining
  have hprocess : (StageState.settled c).process? = (st i).process? := by
    obtain hs | ⟨hs, rfl⟩ := hs <;> rw [hs] <;> rfl
  refine ⟨h.counted.complete i status pid, fun j => ?_, fun j stage' hj => ?_,
    h.jobs_update hprocess, h.beyond_update hstage _⟩
  · by_cases hj : j = i
    · subst hj
      rw [Function.update_self]
      refine (h.lives j).concat ?_
      rw [hcommand]
      exact hstep _
    · rw [Function.update_of_ne hj]
      exact (h.lives j).concat (.other (by simp [Event.stage?, Ne.symm hj]))
  · obtain ⟨result, hget, hresult⟩ := h.results j stage' hj
    change ∃ r, (l.results.set i _)[j]? = some r ∧ _
    by_cases hji : j = i
    · subst hji
      have hlt := (List.getElem?_eq_some_iff.mp hget).1
      obtain rfl : stage = stage' := Option.some.inj (hstage.symm.trans hj)
      rw [Function.update_self, List.getElem?_set_self hlt, hcommand]
      exact ⟨_, rfl, (status, pid), hc, rfl⟩
    · rw [Function.update_of_ne hji, List.getElem?_set_ne (Ne.symm hji)]
      exact ⟨result, hget, hresult⟩

/-- A command that was not found. -/
theorem miss (h : l.Tells st) {stage : Stage} (hstage : l.stages[i]? = some stage)
    (hs : st i = .idle) : (l.miss i).Tells (Function.update st i (.settled .missing)) := by
  have hnoted := h.note hstage (x := .missing i) (s := .due .missing) (hs ▸ .missing) rfl rfl
    (fun _ _ hr => by rwa [hs] at hr) (by rw [hs]; rfl)
  have hdone := hnoted.complete (i := i) hstage (c := .missing) rfl (.inl (Function.update_self ..))
  rwa [Function.update_idem] at hdone

/-- A program that could not be started. -/
theorem refuse (h : l.Tells st) {stage : Stage} (hstage : l.stages[i]? = some stage)
    (hs : st i = .idle) : (l.refuse i).Tells (Function.update st i (.settled .refused)) := by
  have hnoted := h.note hstage (x := .refused i) (s := .due .refused) (hs ▸ .refused) rfl rfl
    (fun _ _ hr => by rwa [hs] at hr) (by rw [hs]; rfl)
  have hdone := hnoted.complete (i := i) hstage (c := .refused) rfl (.inl (Function.update_self ..))
  rwa [Function.update_idem] at hdone

/-- A program that has been started. -/
theorem start (h : l.Tells st) {stage : Stage} (hstage : l.stages[i]? = some stage)
    (hs : st i = .idle) (pid : Nat) :
    (l.start i pid).Tells (Function.update st i (.running pid)) := by
  refine h.event hstage (x := .started i pid) (hs ▸ .started pid) rfl rfl
    (fun _ _ hr => by rwa [hs] at hr) rfl rfl rfl rfl fun j p => ?_
  have hjobs : (l.start i pid).jobs = l.jobs ++ [{ index := i, pid }] := rfl
  rw [hjobs, List.mem_append, h.jobs, Function.update_apply]
  by_cases hj : j = i
  · simp [hj, hs, StageState.process?, eq_comm]
  · simp [hj]

/-- A program that has been waited for, perhaps not for the first time. -/
theorem finish (h : l.Tells st) {stage : Stage} {job : Job}
    (hstage : l.stages[job.index]? = some stage) (e : Exit)
    (hs : st job.index = .running job.pid ∨ ∃ e', st job.index = .settled (.ended job.pid e')) :
    (l.finish job (some e)).Tells (Function.update st job.index (.settled (.ended job.pid e))) := by
  have hstep : StageState.Step job.index (st job.index) (.awaited job.index job.pid (some e))
      (.due (.ended job.pid e)) := by
    obtain hs | ⟨e', hs⟩ := hs <;> rw [hs]
    · exact .awaited job.pid e
    · exact .again job.pid e e'
  have hprocess : (StageState.due (.ended job.pid e)).process? = (st job.index).process? := by
    obtain hs | ⟨e', hs⟩ := hs <;> rw [hs] <;> rfl
  have hnoted := h.note hstage hstep rfl rfl (fun _ _ _ => trivial) hprocess
  have hdone := hnoted.complete (i := job.index) hstage (c := .ended job.pid e) rfl
    (.inl (Function.update_self ..))
  rwa [Function.update_idem] at hdone

/-- A builtin that has no result yet is marked as interrupted. -/
theorem completePending (h : l.Tells st) {stage : Stage} (hstage : l.stages[i]? = some stage)
    (hs : st i = .idle ∨ st i = .due (.returned (.error .interrupt)) ∨ ∃ c, st i = .settled c) :
    (l.completePending i statusInterrupted).Tells (Function.update st i (st i).interrupted) := by
  obtain ⟨result, hget, hresult⟩ := h.results i stage hstage
  unfold Ledger.completePending
  obtain hs | hs | ⟨c, hs⟩ := hs
  · have hnone : result = none := by rwa [hs] at hresult
    rw [if_pos (by simp [isPending, hget, hnone]), hs]
    exact h.complete hstage rfl (.inr ⟨hs, rfl⟩)
  · have hnone : result = none := by rwa [hs] at hresult
    rw [if_pos (by simp [isPending, hget, hnone]), hs]
    exact h.complete hstage rfl (.inl hs)
  · rw [hs] at hresult
    obtain ⟨v, -, rfl⟩ := hresult
    have hsame : (st i).interrupted = st i := by rw [hs]; rfl
    rwa [if_neg (by simp [isPending, hget]), hsame, Function.update_eq_self]

end Tells

/-- At its start nothing has happened to any stage. -/
theorem tells_ofStages (stages : List Stage) : (ofStages stages).Tells fun _ => .idle where
  counted := counted_ofStages stages
  lives i := by
    change Lives i ((couplerEnds (stages.length - 1)).map .opened) .idle
    induction couplerEnds (stages.length - 1) using List.reverseRecOn with
    | nil => exact .nil
    | append_singleton ends e ih =>
      rw [List.map_append]
      exact ih.concat (.other (by simp [Event.stage?]))
  results i stage hstage := by
    have hget : stages[i]? = some stage := hstage
    have hnone : (ofStages stages).results[i]? = some none := by
      change (stages.map fun _ => none)[i]? = _
      rw [List.getElem?_map, hget]
      rfl
    exact ⟨none, hnone, rfl⟩
  jobs i pid := by simp [ofStages, StageState.process?]
  beyond _ _ := rfl

end Ledger

end CommandShell.Pipeline
