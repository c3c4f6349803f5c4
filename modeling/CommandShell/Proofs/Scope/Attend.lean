import CommandShell.Proofs.Kernel.Ward
import CommandShell.Proofs.Ledger.Ends
import CommandShell.Proofs.Scope.Pipeline

/-!
# Programs that a pipeline has started

A pipeline forgets none of its programs before it has waited for them. What builtins run meanwhile
forgets none of them either: it may forget its own programs only, which are new.

## Main statements

- `Run.Attended`: the programs of a run are known to the system.
- `Run.attended_spawnAll`, `Run.attended_runBuiltins`: so it is until the run waits for them.
-/

namespace CommandShell

/-- A scope that allows everything but to forget some programs. -/
def Scope.sparing (P : Nat → Prop) : Scope where
  touches _ := True
  strikes _ := True
  reaps pid := ¬ P pid
  admits _ := True
  grips := True
  alters _ _ := True
  opens _ := True

variable {P : Nat → Prop}

/-- Programs that are known are not among those that will be started. -/
theorem Session.within_sparing {s : Session} (h : s.world.toKernel.Wards P) :
    s.Within (.sparing P) where
  machine _ _ _ _ _ _ := trivial
  null := trivial
  reader _ := trivial
  directory := trivial
  free := ⟨fun _ _ => trivial, fun _ => trivial⟩
  screen _ _ := trivial
  fresh := ⟨fun _ _ => trivial, fun _ _ => trivial, fun _ _ => trivial, fun _ _ => trivial,
    fun _ _ => trivial, fun _ hle hp => Nat.not_lt_of_le hle (h.lt_nextPid hp)⟩

/-- What is done in a scope that spares some programs leaves them known. -/
theorem Session.Makes.wards {s s' : Session} (hm : s.Makes (.sparing P) s')
    (h : s.world.toKernel.Wards P) : s'.world.toKernel.Wards P :=
  Kernel.Moves.wards (σ := .sparing P) (fun _ hp hr => hr hp) hm.moves h

/-- Lines that are run for a chat model forget no program that they have not started. -/
theorem Shell.captureWithin_sparing (P : Nat → Prop) (depth : Nat) :
    Builtin.CaptureWithin (.sparing P) (capture depth) := by
  intro line s hs
  -- they send no signal to such a program either, so they stay within a smaller scope that is full
  let σ : Scope := { Scope.sparing P with strikes := fun pid => ¬ P pid }
  have hle : σ.Le (.sparing P) :=
    ⟨fun _ _ => trivial, fun _ _ => trivial, fun _ h => h, fun _ _ => trivial, fun _ => trivial,
      fun _ _ _ => trivial, fun _ _ => trivial⟩
  have hfull : σ.Full := ⟨trivial, fun _ h => h⟩
  have hwithin : s.Within σ :=
    ⟨hs.machine, hs.null, hs.reader, hs.directory, ⟨hs.free.alters, hs.free.opens⟩, hs.screen,
    ⟨hs.fresh.file, hs.fresh.reader, hs.fresh.writer, hs.fresh.stream, hs.fresh.reaps,
      hs.fresh.reaps⟩⟩
  have hmakes := captureWithin_capture hfull depth line s hwithin
  exact ⟨hmakes.moves.mono hle, hmakes.steady⟩

namespace Pipeline

/-- A program that has been started for a pipeline. -/
def Ledger.Started (l : Ledger) (pid : Nat) : Prop := ∃ job ∈ l.jobs, job.pid = pid

namespace Run

/-- The programs of a run are known to the system. -/
def Attended (r : Run) : Prop := r.kernel.Wards r.Started

variable {r r' : Run}

theorem within_sparing (h : r.kernel.Wards P) : r.Within (.sparing P) where
  session := Session.within_sparing h
  reader _ _ := trivial
  writer _ _ := trivial
  outlets := ⟨fun _ _ _ => trivial, fun _ _ => trivial⟩
  streams _ _ := trivial
  jobs _ _ := trivial

namespace Attended

theorem within (h : r.Attended) : r.Within (.sparing r.Started) := within_sparing h

/-- What forgets no program of a run and starts none leaves its programs known. -/
theorem makes (h : r.Attended) (hm : r.Makes (.sparing r.Started) r') (hjobs : r'.jobs = r.jobs) :
    r'.Attended := by
  have hstarted : r'.Started = r.Started := by
    unfold Ledger.Started
    rw [hjobs]
  unfold Attended
  rw [hstarted]
  exact hm.session.wards h

theorem closeEnds (h : r.Attended) (ends : List CouplerEnd) : (r.closeEnds ends).Attended :=
  h.makes (h.within.makes_closeEnds trivial ends) (lasting_jobs.closeEnds r ends)

/-- A program that is started is known from then on. -/
theorem start (h : r.Attended) (i : Nat) (process : Process) (descriptors : List (Nat × Handle)) :
    ((r.onKernel fun _ => (r.kernel.spawn process descriptors).2).onLedger
      fun l => l.start i (r.kernel.spawn process descriptors).1).Attended := by
  have hspawned := Kernel.Wards.spawn h process descriptors
  have hmakes := (within_sparing (r := { r with session := r.session.onKernel fun _ =>
    (r.kernel.spawn process descriptors).2 }) hspawned).makes_onKernel (f := id) .refl
  refine (hmakes.session.wards hspawned).mono fun pid => ?_
  rintro ⟨job, hj, rfl⟩
  rcases List.mem_append.mp hj with hold | hnew
  · exact .inl ⟨job, hold, rfl⟩
  · exact .inr (List.mem_singleton.mp hnew ▸ rfl)

theorem spawnProgram (h : r.Attended) (i : Nat) (stage : Stage) (path : Path) :
    (r.spawnProgram i stage path).2.Attended := by
  have hmakes := (h.within.makes_descriptorsFor i stage.redirections.merges).1
  have hrouted := r.toLedger_descriptorsFor i stage.redirections.merges
  unfold Run.spawnProgram
  extract_lets ends
  generalize r.descriptorsFor i stage.redirections.merges = routed at hmakes hrouted
  obtain ⟨r₁, descriptors, streams⟩ := routed
  have h₁ : r₁.Attended := h.makes hmakes (congrArg Ledger.jobs hrouted)
  have h₂ : (r₁.handAll i ends).Attended :=
    h₁.makes (h₁.within.makes_handAll i ends) (lasting_jobs.handAll r₁ i ends)
  dsimp only
  generalize r₁.handAll i ends = r₂ at h₂
  split
  · exact h₂.closeEnds ends
  · split
    · exact (h₂.makes (h₂.within.makes_cannotStart i stage _) rfl).closeEnds ends
    · next process _ =>
      have hclosed := (h₂.start i process descriptors).closeEnds ends
      have hlogged := hclosed.makes (hclosed.within.makes_log .debug ("started " ++ stage.command)
        (some (r₂.kernel.spawn process descriptors).1)) rfl
      exact hlogged.makes (hlogged.within.makes_attach fun _ _ => trivial)
        (congrArg Ledger.jobs (toLedger_attach _ streams))

theorem spawn (h : r.Attended) (i : Nat) (stage : Stage) : (r.spawn i stage).2.Attended := by
  unfold Run.spawn
  split
  · exact h.closeEnds _
  · exact (h.makes (h.within.makes_notFound i stage) rfl).closeEnds _
  · exact h.spawnProgram i stage _

theorem spawnAll (h : r.Attended) (indexed : List (Stage × Nat)) :
    (Run.spawnAll indexed r).2.Attended := by
  induction indexed generalizing r with
  | nil => exact h
  | cons stage rest ih =>
    have hfirst := h.spawn stage.2 stage.1
    unfold Run.spawnAll
    split
    · next hs =>
      rw [hs] at hfirst
      exact ih hfirst
    · exact hfirst

theorem runBuiltins (h : r.Attended) (depth : Nat) (indexed : List (Stage × Nat))
    (stops : Nat → Option Nat) :
    (Run.runBuiltins (Shell.capture depth) indexed r stops).2.Attended :=
  h.makes (h.within.makes_runBuiltins trivial (Shell.captureWithin_sparing _ depth) indexed stops)
    (lasting_jobs.runBuiltins r (Shell.capture depth) indexed stops)

theorem interruptBuiltins (h : r.Attended) (indexed : List (Stage × Nat)) :
    (r.interruptBuiltins indexed).Attended :=
  h.makes (h.within.makes_interruptBuiltins indexed) (lasting_jobs.interruptBuiltins r indexed)

end Attended

theorem attended_init {s : Session} (hs : s.world.toKernel.Numbered) (stages : List Stage)
    (wiring : Wiring) : (init s stages wiring).Attended := by
  have hwiring : wiring.outlets.Within (.sparing fun _ => False) :=
    ⟨fun _ _ _ => trivial, fun _ _ => trivial⟩
  have hmakes := (within_init trivial (Session.within_sparing hs) hwiring stages).2
  refine (hmakes.wards hs).mono fun pid => ?_
  rintro ⟨job, hj, -⟩
  cases hj

end Run

end Pipeline

end CommandShell
