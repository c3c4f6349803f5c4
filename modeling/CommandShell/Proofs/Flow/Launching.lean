import CommandShell.Proofs.Flow.Preparing

/-!
# Starting the programs of a chain

Every program of a pipeline that can be started has been started before anything runs, and those
that have been started are the programs of the chain. What they are given to write their errors to
leads to the terminal.

## Main statements

- `Chain.Crew`: the tasks that run the programs of the first stages of a chain.
- `Pipeline.Run.Fresh.spawnProgram_ok`: what starting a program comes to.
- `Pipeline.Run.Starting.spawnAll`: the programs before the last stage have been started.
-/

namespace CommandShell

open Pipeline (Outlet CouplerEnd StartError)

/-- A program is started for a stage. -/
def Pipeline.Launches (s : Session) (stage : Stage) (process : Process) : Prop :=
  ∃ path, stage.target = .program (some path) ∧
    start s (stage.command :: stage.args) path = .ok process

/-- What is written to a handle, as errors are, comes to the terminal. -/
def Kernel.Mutters (k : Kernel) (h : Handle) : Prop :=
  h = .tap (.screen .err) ∨ ∃ n, h = .tap (.stream n) ∧ n < k.nextNumber

theorem Kernel.Mutters.mono {k k' : Kernel} {h : Handle} (hm : k.Mutters h)
    (hle : k.nextNumber ≤ k'.nextNumber) : k'.Mutters h :=
  hm.imp_right fun ⟨n, heq, hlt⟩ => ⟨n, heq, Nat.lt_of_lt_of_le hlt hle⟩

namespace Chain

variable {C : Chain} {s : Session} {stages : List Stage} {E : Nat → Handle → Prop} {n : Nat}
  {k k' : Kernel}

/-- The tasks of a system are the programs of the first stages, which write their errors to such
handles, and nothing but programs that cannot be started is missing. -/
structure Crew (C : Chain) (s : Session) (stages : List Stage) (E : Nat → Handle → Prop) (n : Nat)
    (k : Kernel) : Prop where
  tasks : ∀ t ∈ k.tasks, ∃ i stage err, i < n ∧ stages[i]? = some stage ∧
    Pipeline.Launches s stage t.process ∧ C.Mans i err t ∧ E i err
  manned : ∀ i stage process, i < n → stages[i]? = some stage → Pipeline.Launches s stage process →
    C.Manned k i
  pids : (k.tasks.map Task.pid).Nodup
  recent : ∀ t ∈ k.tasks, t.pid < k.nextPid
  seats : ∀ t ∈ k.tasks, ∀ u ∈ k.tasks, ∀ i err err', C.Mans i err t → C.Mans i err' u →
    t.pid = u.pid

namespace Crew

/-- Nobody has been started at first. -/
theorem init (htasks : k.tasks = []) : C.Crew s stages E 0 k :=
  ⟨by simp [htasks], fun _ _ _ h => absurd h (Nat.not_lt_zero _), by simp [htasks], by
    simp [htasks], by simp [htasks]⟩

theorem congr (h : C.Crew s stages E n k) (htasks : k'.tasks = k.tasks)
    (hpid : k'.nextPid = k.nextPid) : C.Crew s stages E n k' where
  tasks := htasks ▸ h.tasks
  manned i stage process hi hstage hp := by
    rw [manned_congr htasks]
    exact h.manned i stage process hi hstage hp
  pids := htasks ▸ h.pids
  recent := by
    rw [htasks, hpid]
    exact h.recent
  seats := htasks ▸ h.seats

theorem mono {E' : Nat → Handle → Prop} (hE : ∀ i err, E i err → E' i err)
    (h : C.Crew s stages E n k) : C.Crew s stages E' n k where
  tasks t ht := by
    obtain ⟨i, stage, err, hi, hstage, hp, hm, herr⟩ := h.tasks t ht
    exact ⟨i, stage, err, hi, hstage, hp, hm, hE i err herr⟩
  manned := h.manned
  pids := h.pids
  recent := h.recent
  seats := h.seats

/-- No program is started for a stage. -/
theorem skip (h : C.Crew s stages E n k) {stage : Stage} (hstage : stages[n]? = some stage)
    (hnone : ∀ process, ¬ Pipeline.Launches s stage process) : C.Crew s stages E (n + 1) k where
  tasks t ht := by
    obtain ⟨i, stage, err, hi, hrest⟩ := h.tasks t ht
    exact ⟨i, stage, err, Nat.lt_succ_of_lt hi, hrest⟩
  manned i stage' process hi hstage' hp := by
    rcases Nat.lt_succ_iff_lt_or_eq.mp hi with hlt | rfl
    · exact h.manned i stage' process hlt hstage' hp
    · obtain rfl := Option.some.inj (hstage.symm.trans hstage')
      exact absurd hp (hnone process)
  pids := h.pids
  recent := h.recent
  seats := h.seats

/-- The program of a stage is started. -/
theorem spawn (h : C.Crew s stages E n k) {stage : Stage} (hstage : stages[n]? = some stage)
    {process : Process} (hp : Pipeline.Launches s stage process) (hpid : 0 < k.nextPid)
    {err : Handle} (herr : E n err) :
    C.Crew s stages E (n + 1) (k.spawn process [(0, C.input n), (1, C.output n), (2, err)]).2 := by
  let t : Task :=
    { pid := k.nextPid, parent := Kernel.shellPid, process,
      descriptors := [(0, C.input n), (1, C.output n), (2, err)] }
  have hm : C.Mans n err t := ⟨rfl, Nat.ne_of_gt hpid, rfl, rfl, rfl, rfl, rfl, rfl, rfl⟩
  have htasks : (k.spawn process [(0, C.input n), (1, C.output n), (2, err)]).2.tasks =
      k.tasks ++ [t] := rfl
  have hmem (u : Task) : u ∈ k.tasks ++ [t] ↔ u ∈ k.tasks ∨ u = t := by simp
  -- Those that have been started before run the programs of other stages.
  have hother (u : Task) (hu : u ∈ k.tasks) (i : Nat) (err' : Handle)
      (hmu : C.Mans i err' u) : i < n := by
    obtain ⟨j, _, _, hj, -, -, hmu', -⟩ := h.tasks u hu
    exact (hmu.unique hmu').1 ▸ hj
  refine ⟨fun u hu => ?_, fun i stage' process' hi hstage' hp' => ?_, ?_, fun u hu => ?_,
    fun u hu v hv i err₁ err₂ hmu hmv => ?_⟩
  · rcases (hmem u).mp hu with hold | rfl
    · obtain ⟨i, stage, err, hi, hrest⟩ := h.tasks u hold
      exact ⟨i, stage, err, Nat.lt_succ_of_lt hi, hrest⟩
    · exact ⟨n, stage, err, Nat.lt_succ_self n, hstage, hp, hm, herr⟩
  · rcases Nat.lt_succ_iff_lt_or_eq.mp hi with hlt | rfl
    · obtain ⟨u, hu, err', hmu⟩ := h.manned i stage' process' hlt hstage' hp'
      exact ⟨u, (hmem u).mpr (.inl hu), err', hmu⟩
    · exact ⟨t, (hmem t).mpr (.inr rfl), err, hm⟩
  · rw [htasks, List.map_append, List.nodup_append]
    refine ⟨h.pids, List.nodup_singleton _, ?_⟩
    rintro pid hpid' pid' hpid'' rfl
    obtain ⟨u, hu, rfl⟩ := List.mem_map.mp hpid'
    have hnew : u.pid = k.nextPid := by simpa using hpid''
    exact absurd hnew (Nat.ne_of_lt (h.recent u hu))
  · change u.pid < k.nextPid + 1
    rcases (hmem u).mp hu with hold | rfl
    · exact Nat.lt_succ_of_lt (h.recent u hold)
    · exact Nat.lt_succ_self _
  · rcases (hmem u).mp hu with hold | rfl <;> rcases (hmem v).mp hv with hold' | rfl
    · exact h.seats u hold v hold' i err₁ err₂ hmu hmv
    · exact absurd (hmv.unique hm).1 (Nat.ne_of_lt (hother u hold i err₁ hmu))
    · exact absurd (hmu.unique hm).1 (Nat.ne_of_lt (hother v hold' i err₂ hmv))
    · rfl

end Crew

end Chain

namespace Pipeline

namespace Run

variable {r r₀ r₁ : Run} {i n : Nat} {stage : Stage}

theorem attach_eq (r : Run) (streams : List (Nat × Outlet)) :
    r.attach streams =
      { r with
        pump := { r.pump with active := r.pump.active + streams.length }
        streams := r.streams ++ streams } := by
  unfold attach
  induction streams generalizing r with
  | nil => simp
  | cons x rest ih =>
    rw [List.foldl_cons, ih]
    simp [Pump.attach, Nat.add_assoc, Nat.add_comm 1]

/-- A run in which the shell has started a program that writes to such streams, and has done nothing
else that matters. -/
structure Spawned (i : Nat) (process : Process) (descriptors : List (Nat × Handle))
    (streams : List (Nat × Outlet)) (r r' : Run) : Prop where
  fresh : r'.Fresh
  beside : r.session.Beside r'.session
  shown : r'.session.screen.bytesOn .out = r.session.screen.bytesOn .out
  kernel : ∃ k, r.kernel.Idles k ∧ (k.spawn process descriptors).2.Idles r'.kernel
  wiring : r'.wiring = r.wiring
  couplers : r'.couplers = r.couplers
  pump : r'.pump = { r.pump with active := r.pump.active + streams.length }
  streams : r'.streams = r.streams ++ streams
  stages : r'.stages = r.stages
  jobs : r'.jobs = r.jobs ++ [{ index := i, pid := r.kernel.nextPid }]

/-- The program of a stage cannot be started. -/
theorem Prepares.spawnProgram_error {descriptors : List (Nat × Handle)}
    {streams : List (Nat × Outlet)} (hroute : r.descriptorsFor i stage.redirections.merges =
      (r₁, descriptors, streams)) (hp : r.Prepares r₁)
    (htext : textFault? (stage.command :: stage.args) r.session.environment = none) {path : Path}
    {e : StartError} (hstart : start r.session (stage.command :: stage.args) path = .error e) :
    ∃ r₂, r.Prepares r₂ ∧
      r.spawnProgram i stage path =
        (none, (r₂.cannotStart i stage e).closeEnds (inputEnds i ++ r.outputEnds i)) := by
  have hhand := hp.trans (.handAll r₁ i (inputEnds i ++ r.outputEnds i))
  have hstart' : start (r₁.handAll i (inputEnds i ++ r.outputEnds i)).session
      (stage.command :: stage.args) path = .error e := (hhand.start_eq ..).trans hstart
  have htext' : textFault? (stage.command :: stage.args)
      (r₁.handAll i (inputEnds i ++ r.outputEnds i)).session.environment = none := by
    rw [hhand.beside.environment]
    exact htext
  refine ⟨_, hhand, ?_⟩
  unfold spawnProgram
  simp only [hroute, htext', hstart']

namespace Fresh

/-- The program of a stage can be started. -/
theorem spawnProgram_ok (hf : r.Fresh) {descriptors : List (Nat × Handle)}
    {streams : List (Nat × Outlet)} (hroute : r.descriptorsFor i stage.redirections.merges =
      (r₁, descriptors, streams)) (hp : r.Prepares r₁)
    (htext : textFault? (stage.command :: stage.args) r.session.environment = none) {path : Path}
    {process : Process} (hstart : start r.session (stage.command :: stage.args) path =
      .ok process) :
    ∃ r', r.spawnProgram i stage path = (none, r') ∧
      r₁.Spawned i process descriptors streams r' := by
  have hhand₁ := Prepares.handAll r₁ i (inputEnds i ++ r.outputEnds i)
  have hhand := hp.trans hhand₁
  have hstart' : start (r₁.handAll i (inputEnds i ++ r.outputEnds i)).session
      (stage.command :: stage.args) path = .ok process := (hhand.start_eq ..).trans hstart
  have htext' : textFault? (stage.command :: stage.args)
      (r₁.handAll i (inputEnds i ++ r.outputEnds i)).session.environment = none := by
    rw [hhand.beside.environment]
    exact htext
  unfold spawnProgram
  simp only [hroute, htext', hstart']
  generalize r₁.handAll i (inputEnds i ++ r.outputEnds i) = r₂ at hhand hhand₁
  have hf₂ := hhand.fresh hf
  -- What is done to the system is that a task comes behind the others.
  let r₃ : Run := { r₂ with
    session := r₂.session.onKernel fun _ => (r₂.kernel.spawn process descriptors).2
    jobs := r₂.jobs ++ [{ index := i, pid := r₂.kernel.nextPid }]
    history := r₂.history ++ [.started i r₂.kernel.nextPid] }
  have hspawned : (r₂.onKernel fun _ => (r₂.kernel.spawn process descriptors).2).onLedger
      (fun l => l.start i (r₂.kernel.spawn process descriptors).1) = r₃ := by
    have habsorb : (r₂.session.onKernel fun _ => (r₂.kernel.spawn process descriptors).2).absorb =
        r₂.session.onKernel fun _ => (r₂.kernel.spawn process descriptors).2 :=
      Session.absorb_of_spilled_nil hf₂.spilled
    unfold Run.onKernel
    rw [habsorb]
    rfl
  rw [hspawned]
  have hf₃ : r₃.Fresh := ⟨hf₂.spilled, hf₂.screens, hf₂.files, hf₂.next⟩
  have hbeside₃ : r₂.session.Beside r₃.session :=
    Session.Beside.onKernel r₂.session (f := fun _ => (r₂.kernel.spawn process descriptors).2)
      (.of_eq rfl rfl)
  have hclose := hf₃.closeEnds (inputEnds i ++ r.outputEnds i)
  have hend := hclose.trans (.log _ .debug ("started " ++ stage.command) (some r₂.kernel.nextPid))
  refine ⟨_, rfl, ?_⟩
  rw [attach_eq]
  have hf₄ := hend.fresh hf₃
  exact {
    fresh := ⟨hf₄.spilled, hf₄.screens, hf₄.files, hf₄.next⟩
    beside := hhand₁.beside.trans (hbeside₃.trans hend.beside)
    shown := hend.shown.trans hhand₁.shown
    kernel := ⟨r₂.kernel, hhand₁.kernel, hend.kernel⟩
    wiring := hend.wiring.trans hhand₁.wiring
    couplers := hend.couplers.trans hhand₁.couplers
    pump := by
      have hpump := hend.pump.trans hhand₁.pump
      exact congrArg (fun p : Pump Outlet => { p with active := p.active + streams.length }) hpump
    streams := congrArg (· ++ streams) (hend.streams.trans hhand₁.streams)
    stages := hend.stages.trans hhand₁.stages
    jobs := by
      refine hend.jobs.trans ?_
      change r₂.jobs ++ [({ index := i, pid := r₂.kernel.nextPid } : Job)] = _
      rw [hhand₁.jobs, hhand₁.kernel.nextPid] }

/-- What a program before the last stage is given. -/
theorem descriptorsFor_init (hf : r.Fresh) (hi : r.isLast i = false) (merges : Bool) :
    ∃ r₁ err streams, r.descriptorsFor i merges =
        (r₁, [(0, r.inputHandle i), (1, r.endHandle (.write i)), (2, err)], streams) ∧
      r.Prepares r₁ ∧ r₁.kernel.Mutters err ∧ ∀ x ∈ streams, x.2 = .screen .err ∧
        x.1 < r₁.kernel.nextNumber := by
  obtain ⟨hp, hroute⟩ := hf.routeTo_screen .err
  have hdescriptors : r.descriptorsFor i merges = ((r.routeTo (.screen .err)).1,
      [(0, r.inputHandle i), (1, r.endHandle (.write i)), (2, (r.routeTo (.screen .err)).2.1)],
      (r.routeTo (.screen .err)).2.2) := by
    have herr : r.errOutlet i = .screen .err := by simp [errOutlet, hi]
    unfold descriptorsFor
    simp only [hi, Bool.false_and, Bool.false_eq_true, if_false, herr]
    rfl
  refine ⟨_, _, _, hdescriptors, hp, ?_⟩
  obtain ⟨-, hto⟩ | ⟨-, hto, hlt⟩ := hroute
  · rw [hto]
    exact ⟨.inl rfl, by simp⟩
  · rw [hto]
    exact ⟨.inr ⟨_, rfl, hlt⟩, by simpa using hlt⟩

end Fresh

/-- The couplers of a run are the pipes between the stages of a chain, which are several. -/
structure Couples (C : Chain) (r : Run) : Prop where
  length : r.stages.length = C.length
  several : C.length ≠ 1
  read : ∀ i, i + 1 < C.length → r.endHandle (.read i) = .reader (C.base + i)
  write : ∀ i, i + 1 < C.length → r.endHandle (.write i) = .writer (C.base + i)

namespace Couples

variable {C : Chain}

theorem congr (h : Couples C r) (hcouplers : r'.couplers = r.couplers)
    (hstages : r'.stages = r.stages) : Couples C r' := by
  have hends := endHandle_congr hcouplers
  refine ⟨hstages ▸ h.length, h.several, fun i hi => ?_, fun i hi => ?_⟩
  · rw [hends]
    exact h.read i hi
  · rw [hends]
    exact h.write i hi

/-- What a stage reads from is the pipe before it, or nothing. -/
theorem inputHandle_eq (h : Couples C r) {i : Nat} (hi : i < C.length) :
    r.inputHandle i = C.input i := by
  cases i with
  | zero => exact if_neg (h.length ▸ h.several)
  | succ m => exact h.read m hi

end Couples

/-- The programs of the first stages have been started, and nothing else has happened since. -/
structure Starting (C : Chain) (r₀ : Run) (n : Nat) (r : Run) : Prop where
  fresh : r.Fresh
  beside : r₀.session.Beside r.session
  shown : r.session.screen.bytesOn .out = r₀.session.screen.bytesOn .out
  files : r.kernel.files = r₀.kernel.files
  opened : r.kernel.opened = r₀.kernel.opened
  patience : r.kernel.patience = r₀.kernel.patience
  nextPid : 0 < r.kernel.nextPid
  nextNumber : r₀.kernel.nextNumber ≤ r.kernel.nextNumber
  pipes : ∀ m, r.kernel.pipeContent m = ByteArray.empty
  wiring : r.wiring = r₀.wiring
  couplers : r.couplers = r₀.couplers
  stages : r.stages = r₀.stages
  crew : C.Crew r₀.session r₀.stages (fun _ => r.kernel.Mutters) n r.kernel
  jobs : ∀ t ∈ r.kernel.tasks, ∃ job ∈ r.jobs, job.pid = t.pid
  pump : r.pump = { queue := [], active := r.streams.length }
  streams : ∀ x ∈ r.streams, x.2 = .screen .err ∧ x.1 < r.kernel.nextNumber

namespace Starting

variable {C : Chain}

theorem prepares (h : Starting C r₀ n r) (hp : r.Prepares r₁) : Starting C r₀ n r₁ where
  fresh := hp.fresh h.fresh
  beside := h.beside.trans hp.beside
  shown := hp.shown.trans h.shown
  files := hp.kernel.files.trans h.files
  opened := hp.kernel.opened.trans h.opened
  patience := hp.kernel.patience.trans h.patience
  nextPid := hp.kernel.nextPid ▸ h.nextPid
  nextNumber := Nat.le_trans h.nextNumber hp.kernel.nextNumber
  pipes m := hp.kernel.pipes m (h.pipes m)
  wiring := hp.wiring.trans h.wiring
  couplers := hp.couplers.trans h.couplers
  stages := hp.stages.trans h.stages
  crew := (h.crew.congr hp.kernel.tasks hp.kernel.nextPid).mono fun _ _ herr =>
    herr.mono hp.kernel.nextNumber
  jobs := by
    rw [hp.kernel.tasks, hp.jobs]
    exact h.jobs
  pump := by rw [hp.pump, h.pump, hp.streams]
  streams x hx := by
    obtain ⟨hout, hlt⟩ := h.streams x (hp.streams ▸ hx)
    exact ⟨hout, Nat.lt_of_lt_of_le hlt hp.kernel.nextNumber⟩

variable {err : Handle} {streams : List (Nat × Outlet)} {process : Process}

/-- A program has been started for the next stage. -/
theorem spawned (h : Starting C r₀ n r) (hstage : r₀.stages[n]? = some stage)
    (hp : Launches r₀.session stage process) (herr : r.kernel.Mutters err)
    (hstreams : ∀ x ∈ streams, x.2 = .screen .err ∧ x.1 < r.kernel.nextNumber)
    (hl : r.Spawned n process [(0, C.input n), (1, C.output n), (2, err)] streams r₁) :
      Starting C r₀ (n + 1) r₁ := by
  obtain ⟨k, hbefore, hafter⟩ := hl.kernel
  have hnumber : r.kernel.nextNumber ≤ r₁.kernel.nextNumber :=
    Nat.le_trans hbefore.nextNumber hafter.nextNumber
  have hcrew : C.Crew r₀.session r₀.stages (fun _ => r₁.kernel.Mutters) n k :=
    (h.crew.congr hbefore.tasks hbefore.nextPid).mono fun _ _ herr => herr.mono hnumber
  have hpid : 0 < k.nextPid := hbefore.nextPid ▸ h.nextPid
  obtain ⟨t, htasks, hnew⟩ : ∃ t, r₁.kernel.tasks = k.tasks ++ [t] ∧ t.pid = k.nextPid :=
    ⟨_, hafter.tasks, rfl⟩
  exact {
    fresh := hl.fresh
    beside := h.beside.trans hl.beside
    shown := hl.shown.trans h.shown
    files := hafter.files.trans (hbefore.files.trans h.files)
    opened := hafter.opened.trans (hbefore.opened.trans h.opened)
    patience := hafter.patience.trans (hbefore.patience.trans h.patience)
    nextPid := hafter.nextPid ▸ Nat.succ_pos _
    nextNumber := Nat.le_trans h.nextNumber hnumber
    pipes m := hafter.pipes m (hbefore.pipes m (h.pipes m))
    wiring := hl.wiring.trans h.wiring
    couplers := hl.couplers.trans h.couplers
    stages := hl.stages.trans h.stages
    crew := (hcrew.spawn hstage hp hpid (herr.mono hnumber)).congr hafter.tasks hafter.nextPid
    jobs t ht := by
      rw [hl.jobs]
      rw [htasks, hbefore.tasks] at ht
      rcases List.mem_append.mp ht with hold | hlast
      · obtain ⟨job, hjob, hpid'⟩ := h.jobs _ hold
        exact ⟨job, List.mem_append_left _ hjob, hpid'⟩
      · obtain rfl := List.mem_singleton.mp hlast
        exact ⟨_, List.mem_append_right _ (List.mem_singleton_self _),
          (hnew.trans hbefore.nextPid).symm⟩
    pump := by rw [hl.pump, h.pump, hl.streams, List.length_append]
    streams x hx := by
      rw [hl.streams] at hx
      obtain ⟨hout, hlt⟩ := (List.mem_append.mp hx).elim (h.streams x) (hstreams x)
      exact ⟨hout, Nat.lt_of_lt_of_le hlt hnumber⟩ }

/-- The stage is dealt with, and no program is started for it. -/
theorem skip (h : Starting C r₀ n r) (hstage : r₀.stages[n]? = some stage)
    (hnone : ∀ process, ¬ Launches r₀.session stage process) : Starting C r₀ (n + 1) r :=
  { h with crew := h.crew.skip hstage hnone }

variable (hC : Couples C r₀)
include hC

/-- A stage before the last is dealt with. -/
theorem spawn (h : Starting C r₀ n r) (hn : n + 1 < C.length) (hstage : r₀.stages[n]? = some stage)
    (htext : ∀ path, stage.target = .program (some path) →
      textFault? (stage.command :: stage.args) r₀.session.environment = none) :
    ∃ r', r.spawn n stage = (none, r') ∧ Starting C r₀ (n + 1) r' := by
  have hi : r.isLast n = false := by
    rw [isLast, h.stages, hC.length]
    simpa using Nat.ne_of_lt hn
  have herr : r.errOutlet n = .screen .err := by simp [errOutlet, hi]
  have hstarts (path : Path) : start r.session (stage.command :: stage.args) path =
      start r₀.session (stage.command :: stage.args) path := start_congr h.beside.upkeep h.files ..
  unfold Run.spawn
  split
  · next ht =>
    have hclose := h.fresh.closeEnds (inputEnds n)
    exact ⟨_, rfl, (h.prepares hclose).skip hstage fun _ hl => by
      obtain ⟨_, ht', -⟩ := hl
      simp [ht] at ht'⟩
  · next ht =>
    have hmissing := h.fresh.notFound herr stage
    have hclose :=
      hmissing.trans ((hmissing.fresh h.fresh).closeEnds (inputEnds n ++ r.outputEnds n))
    exact ⟨_, rfl, (h.prepares hclose).skip hstage fun _ hl => by
      obtain ⟨_, ht', -⟩ := hl
      simp [ht] at ht'⟩
  · next path ht =>
    obtain ⟨r₁, err, streams, hroute, hp, herr₁, hstreams⟩ :=
      h.fresh.descriptorsFor_init hi stage.redirections.merges
    have htext' : textFault? (stage.command :: stage.args) r.session.environment = none := by
      rw [h.beside.environment]
      exact htext path ht
    cases hstart : start r.session (stage.command :: stage.args) path with
    | error e =>
      obtain ⟨r₂, hp₂, hspawn⟩ := hp.spawnProgram_error hroute htext' hstart
      have herr₂ : r₂.errOutlet n = .screen .err := by simp [errOutlet, hp₂.isLast, hi]
      have hrefused := hp₂.trans ((hp₂.fresh h.fresh).cannotStart herr₂ stage e)
      have hclose :=
        hrefused.trans ((hrefused.fresh h.fresh).closeEnds (inputEnds n ++ r.outputEnds n))
      refine ⟨_, hspawn, (h.prepares hclose).skip hstage fun process hl => ?_⟩
      obtain ⟨path', ht', hstart'⟩ := hl
      obtain rfl : path = path' := by simpa [ht] using ht'
      rw [← hstarts, hstart] at hstart'
      cases hstart'
    | ok process =>
      obtain ⟨r', hspawn, hl⟩ := h.fresh.spawnProgram_ok hroute hp htext' hstart
      have hinput : r.inputHandle n = C.input n :=
        (hC.congr h.couplers h.stages).inputHandle_eq (Nat.lt_of_succ_lt hn)
      have houtput : r.endHandle (.write n) = C.output n := by
        rw [endHandle_congr h.couplers, hC.write n hn, Chain.output, if_pos hn]
      rw [hinput, houtput] at hl
      exact ⟨r', hspawn, (h.prepares hp).spawned hstage ⟨path, ht, (hstarts path) ▸ hstart⟩ herr₁
        hstreams hl⟩

/-- Stages before the last are dealt with, one after the other. -/
theorem spawnAll {todo : List Stage} (h : Starting C r₀ n r) (hn : n + todo.length < C.length)
    (htodo : ∀ j stage, todo[j]? = some stage → r₀.stages[n + j]? = some stage)
    (htexts : ∀ stage ∈ todo, ∀ path, stage.target = .program (some path) →
      textFault? (stage.command :: stage.args) r₀.session.environment = none) :
    ∃ r', Run.spawnAll (todo.zipIdx n) r = (none, r') ∧ Starting C r₀ (n + todo.length) r' := by
  induction todo generalizing n r with
  | nil => exact ⟨r, rfl, h⟩
  | cons stage rest ih =>
    rw [List.length_cons] at hn
    obtain ⟨r₁, hfirst, h₁⟩ :=
      h.spawn hC (by omega) (htodo 0 stage rfl) (htexts stage List.mem_cons_self)
    obtain ⟨r', hrest, h'⟩ := ih h₁ (by omega)
      (fun j stage' hj => by
        have hnext := htodo (j + 1) stage' hj
        rwa [← Nat.add_assoc, Nat.add_right_comm] at hnext)
      fun stage' hstage' => htexts stage' (List.mem_cons_of_mem stage hstage')
    refine ⟨r', ?_, ?_⟩
    · rw [List.zipIdx_cons]
      simp only [Run.spawnAll, hfirst, hrest]
    · rwa [Nat.add_right_comm, Nat.add_assoc] at h'

end Starting

end Run

end Pipeline

end CommandShell
