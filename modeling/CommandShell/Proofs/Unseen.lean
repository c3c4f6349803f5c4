import CommandShell.Pipeline
import CommandShell.Proofs.Builtin.Mapping
import CommandShell.Proofs.Pump

/-!
# Changes that a pipeline does not see

How stages are run depends neither on everything in a session nor on everything that is known of the
stages. Every operation of a run commutes with a change to what nobody looks at, and so running all
stages does. A change may be one that is not looked at in some sessions only, if a run does not
leave these.

## Main statements

- `Pipeline.Change`: a change to a session and to stages that makes no difference.
- `Pipeline.runWired_changed`: running stages after such a change.
-/

namespace CommandShell.Pipeline

/-- A change to a session and to what is written down of stages that makes no difference to how
stages are run. -/
structure Change where
  stages : List Stage → List Stage
  session : Session → Session
  /-- The sessions in which the change makes no difference. -/
  apt : Session → Prop
  upkeep : ∀ s s', s.Upkeep s' → apt s → apt s'
  commands : ∀ l, (stages l).map Stage.command = l.map Stage.command
  kernel : ∀ s, (session s).world.toKernel = s.world.toKernel
  environment : ∀ s, (session s).environment = s.environment
  interrupts : ∀ s, (session s).interrupts = s.interrupts
  input : ∀ s, (session s).input = s.input
  start : ∀ s arguments path, apt s →
    Pipeline.start (session s) arguments path = Pipeline.start s arguments path
  setInterrupts : ∀ s interrupts, { session s with interrupts } = session { s with interrupts }
  note : ∀ s level source message pid,
    (session s).note level source message pid = session (s.note level source message pid)
  onKernel : ∀ s f, (session s).onKernel f = session (s.onKernel f)
  absorb : ∀ s, (session s).absorb = session s.absorb
  write : ∀ text outlet o s,
    Outlets.write text outlet o (session s) = (Outlets.write text outlet o s).map id session
  writeBytes : ∀ bytes outlet o s,
    Outlets.writeBytes bytes outlet o (session s) =
      (Outlets.writeBytes bytes outlet o s).map id session
  flush : ∀ outlet o s, Outlets.flush outlet o (session s) =
    (Outlets.flush outlet o s).map id session
  close : ∀ outlet o s, Outlets.close outlet o (session s) =
    (Outlets.close outlet o s).map id session

namespace Change

variable (v : Change) (l : Ledger)

@[simp] theorem length_stages (stages : List Stage) : (v.stages stages).length = stages.length := by
  simpa using congrArg List.length (v.commands stages)

@[simp] theorem command_stages (stages : List Stage) (i : Nat) :
    (v.stages stages)[i]?.map Stage.command = stages[i]?.map Stage.command := by
  rw [← List.getElem?_map, v.commands, List.getElem?_map]

/-- A ledger after a change. -/
def ledger : Ledger := { l with stages := v.stages l.stages }

@[simp] theorem jobs_ledger : (v.ledger l).jobs = l.jobs := rfl

@[simp] theorem length_ledger : (v.ledger l).stages.length = l.stages.length :=
  v.length_stages l.stages

@[simp] theorem complete_ledger (i : Nat) (status : Int) (pid : Option Nat) :
    (v.ledger l).complete i status pid = v.ledger (l.complete i status pid) := by
  unfold Ledger.complete
  simp only [ledger, command_stages]
  rfl

@[simp] theorem completePending_ledger (i : Nat) (status : Int) :
    (v.ledger l).completePending i status = v.ledger (l.completePending i status) := by
  unfold Ledger.completePending
  rw [complete_ledger]
  exact (apply_ite v.ledger _ _ _).symm

@[simp] theorem miss_ledger (i : Nat) : (v.ledger l).miss i = v.ledger (l.miss i) :=
  v.complete_ledger (l.note (.missing i)) i statusNotFound none

@[simp] theorem refuse_ledger (i : Nat) : (v.ledger l).refuse i = v.ledger (l.refuse i) :=
  v.complete_ledger (l.note (.refused i)) i statusCannotRun none

@[simp] theorem finish_ledger (job : Job) (exit : Option Exit) :
    (v.ledger l).finish job exit = v.ledger (l.finish job exit) :=
  v.complete_ledger (l.note (.awaited job.index job.pid exit)) job.index _ _

end Change

variable {v : Change}

namespace Run

/-- A run after a change that it does not see. -/
def changed (v : Change) (r : Run) : Run :=
  { r with toLedger := v.ledger r.toLedger, session := v.session r.session }

section Operations

variable (r : Run)

@[simp] theorem toLedger_changed : (r.changed v).toLedger = v.ledger r.toLedger := rfl

@[simp] theorem session_changed : (r.changed v).session = v.session r.session := rfl

@[simp] theorem wiring_changed : (r.changed v).wiring = r.wiring := rfl

@[simp] theorem pump_changed : (r.changed v).pump = r.pump := rfl

@[simp] theorem streams_changed : (r.changed v).streams = r.streams := rfl

@[simp] theorem kernel_changed : (r.changed v).kernel = r.kernel :=
  v.kernel r.session

@[simp] theorem endHandle_changed (e : CouplerEnd) : (r.changed v).endHandle e = r.endHandle e := by
  cases e <;> rfl

@[simp] theorem isLast_changed (i : Nat) : (r.changed v).isLast i = r.isLast i := by
  simp [isLast]

@[simp] theorem outputEnds_changed (i : Nat) : (r.changed v).outputEnds i = r.outputEnds i := by
  simp [outputEnds]

@[simp] theorem errOutlet_changed (i : Nat) : (r.changed v).errOutlet i = r.errOutlet i := by
  simp [errOutlet]

@[simp] theorem outletFor_changed (i : Nat) (channel : Channel) :
    (r.changed v).outletFor i channel = r.outletFor i channel := by
  cases channel <;> simp [outletFor, outOutlet]

theorem changed_ite (c : Prop) [Decidable c] (r r' : Run) :
    (if c then r.changed v else r'.changed v) = (if c then r else r').changed v :=
  (apply_ite (changed v) c r r').symm

theorem onLedger_changed {f : Ledger → Ledger}
    (hf : f (v.ledger r.toLedger) = v.ledger (f r.toLedger)) :
    (r.changed v).onLedger f = (r.onLedger f).changed v := by
  simp only [onLedger, changed, hf]

@[simp] theorem note_changed (e : Event) : (r.changed v).note e = (r.note e).changed v := rfl

@[simp] theorem onKernel_changed (f : Kernel → Kernel) :
    (r.changed v).onKernel f = (r.onKernel f).changed v := by
  simp only [onKernel, changed, v.onKernel, v.absorb]

@[simp] theorem closeEnd_changed (e : CouplerEnd) :
    (r.changed v).closeEnd e = (r.closeEnd e).changed v := by
  have hopen : (r.changed v).isOpen e = r.isOpen e := rfl
  have hclose (r : Run) : (r.changed v).onLedger (fun l => l.close e) =
      (r.onLedger fun l => l.close e).changed v := rfl
  simp only [closeEnd, hopen, endHandle_changed, onKernel_changed, hclose, changed_ite]

@[simp] theorem closeEnds_changed (ends : List CouplerEnd) :
    (r.changed v).closeEnds ends = (r.closeEnds ends).changed v := by
  induction ends generalizing r with
  | nil => rfl
  | cons e rest ih =>
    simp only [closeEnds, List.foldl_cons, closeEnd_changed] at ih ⊢
    exact ih _

@[simp] theorem closeAll_changed : (r.changed v).closeAll = r.closeAll.changed v :=
  r.closeEnds_changed r.openEnds

@[simp] theorem complete_changed (i : Nat) (status : Int) (pid : Option Nat) :
    (r.changed v).complete i status pid = (r.complete i status pid).changed v :=
  r.onLedger_changed (v.complete_ledger ..)

@[simp] theorem completePending_changed (i : Nat) (status : Int) :
    (r.changed v).completePending i status = (r.completePending i status).changed v :=
  r.onLedger_changed (v.completePending_ledger ..)

theorem onOutlet_changed {f : Outlets → Session → Outlets × Session}
    (hf : ∀ o s, f o (v.session s) = ((f o s).1, v.session (f o s).2)) :
    (r.changed v).onOutlet f = (r.onOutlet f).changed v := by
  simp [onOutlet, changed, hf]

@[simp] theorem write_changed (outlet : Outlet) (text : String) :
    (r.changed v).write outlet text = (r.write outlet text).changed v :=
      r.onOutlet_changed (v.write text outlet)

@[simp] theorem flush_changed (outlet : Outlet) :
    (r.changed v).flush outlet = (r.flush outlet).changed v :=
  r.onOutlet_changed (v.flush outlet)

@[simp] theorem onOutlet_close_changed (outlet : Outlet) :
    (r.changed v).onOutlet (Outlets.close outlet) = (r.onOutlet (Outlets.close outlet)).changed v :=
  r.onOutlet_changed (v.close outlet)

@[simp] theorem log_changed (level : Log.Level) (message : String) (pid : Option Nat) :
    (r.changed v).log level message pid = (r.log level message pid).changed v := by
  simp [log, changed, v.note]

@[simp] theorem notFound_changed (i : Nat) (stage : Stage) :
    (r.changed v).notFound i stage = (r.notFound i stage).changed v := by
  simp only [notFound, errOutlet_changed, write_changed, flush_changed, log_changed]
  exact onLedger_changed _ (v.miss_ledger ..)

@[simp] theorem cannotStart_changed (i : Nat) (stage : Stage) (e : StartError) :
    (r.changed v).cannotStart i stage e = (r.cannotStart i stage e).changed v := by
  simp only [cannotStart, errOutlet_changed, log_changed, write_changed, flush_changed]
  exact onLedger_changed _ (v.refuse_ledger ..)

theorem routeTo_changed (outlet : Outlet) :
    (r.changed v).routeTo outlet = ((r.routeTo outlet).1.changed v, (r.routeTo outlet).2) := by
  simp only [routeTo, flush_changed, wiring_changed]
  split <;> simp

@[simp] theorem attach_changed (streams : List (Nat × Outlet)) :
    (r.changed v).attach streams = (r.attach streams).changed v := by
  induction streams generalizing r with
  | nil => rfl
  | cons stream rest ih =>
    exact ih { r with pump := r.pump.attach, streams := r.streams ++ [stream] }

@[simp] theorem handAll_changed (i : Nat) (ends : List CouplerEnd) :
    (r.changed v).handAll i ends = (r.handAll i ends).changed v := by
  induction ends generalizing r with
  | nil => rfl
  | cons e rest ih => exact ih (r.note (.handed e i))

@[simp] theorem inputHandle_changed (i : Nat) : (r.changed v).inputHandle i = r.inputHandle i := by
  have hin : (r.changed v).session.inputHandle = r.session.inputHandle :=
    congrArg (fun input => Option.elim input Handle.null Handle.reader) (v.input r.session)
  have hlength : (r.changed v).stages.length = r.stages.length := v.length_ledger r.toLedger
  unfold inputHandle
  split
  · rw [hin, hlength]
  · exact r.endHandle_changed _

theorem descriptorsFor_changed (i : Nat) (merges : Bool) : (r.changed v).descriptorsFor i merges =
    ((r.descriptorsFor i merges).1.changed v, (r.descriptorsFor i merges).2) := by
  have hout : (if r.isLast i then (r.changed v).routeTo r.wiring.out
      else (r.changed v, r.endHandle (.write i), [])) =
      ((if r.isLast i then r.routeTo r.wiring.out else (r, r.endHandle (.write i), [])).1.changed v,
        (if r.isLast i then r.routeTo r.wiring.out else (r, r.endHandle (.write i), [])).2) := by
    split
    · exact r.routeTo_changed _
    · rfl
  have hin : (r.changed v).endHandle = r.endHandle := funext r.endHandle_changed
  unfold descriptorsFor
  rw [hin, inputHandle_changed, isLast_changed, wiring_changed, hout]
  generalize (if r.isLast i then r.routeTo r.wiring.out else (r, r.endHandle (.write i), [])) =
    routed
  obtain ⟨r', out, outStreams⟩ := routed
  dsimp only
  rw [isLast_changed, errOutlet_changed, routeTo_changed]
  split <;> rfl

section Starting

variable {r} (hr : v.apt r.session)
include hr

theorem spawnProgram_changed (i : Nat) (stage : Stage) (path : Path) :
    (r.changed v).spawnProgram i stage path =
    ((r.spawnProgram i stage path).1, (r.spawnProgram i stage path).2.changed v) := by
  have hrouted := v.upkeep _ _ (r.upkeep_descriptorsFor i stage.redirections.merges) hr
  have hhanded := v.upkeep _ _ (upkeep_handAll _ i (inputEnds i ++ r.outputEnds i)) hrouted
  simp only [spawnProgram, descriptorsFor_changed, outputEnds_changed, handAll_changed,
    session_changed, v.environment, v.start _ _ _ hhanded]
  split
  · simp
  · split
    · simp
    · have hstart (r : Run) (pid : Nat) : (r.changed v).onLedger (fun l => l.start i pid) =
          (r.onLedger fun l => l.start i pid).changed v := rfl
      simp only [kernel_changed, onKernel_changed, hstart, closeEnds_changed, log_changed,
        attach_changed]

theorem spawn_changed (i : Nat) (stage : Stage) :
    (r.changed v).spawn i stage = ((r.spawn i stage).1, (r.spawn i stage).2.changed v) := by
  unfold spawn
  split
  · simp
  · simp
  · exact spawnProgram_changed hr i stage _

theorem spawnAll_changed (indexed : List (Stage × Nat)) :
    spawnAll indexed (r.changed v) =
      ((spawnAll indexed r).1, (spawnAll indexed r).2.changed v) := by
  induction indexed generalizing r with
  | nil => rfl
  | cons stage rest ih =>
    have hfirst := v.upkeep _ _ (r.upkeep_spawn stage.2 stage.1) hr
    unfold spawnAll
    rw [spawn_changed hr]
    generalize r.spawn stage.2 stage.1 = spawned at hfirst ⊢
    obtain ⟨_ | h, r'⟩ := spawned
    · exact ih hfirst
    · rfl

end Starting

/-- A run is a host that may be changed. -/
theorem maps_host (i : Nat) : (host i).Maps v.session (changed v) where
  session _ := rfl
  setSession _ _ := rfl
  write channel text r := by simp [host]
  encodes channel r := by simp [host]

@[simp] theorem wrapEnd_changed (i : Nat) : (r.changed v).wrapEnd i = (r.wrapEnd i).changed v := rfl

@[simp] theorem closeNext_changed (i : Nat) :
    (r.changed v).closeNext i = (r.closeNext i).changed v := by
  simp only [closeNext, onOutlet_close_changed]
  rfl

section Builtins

variable {capture : Builtin.Capture} (hc : Builtin.Unseen capture v.apt v.session) {r}
  (hr : v.apt r.session)
include hc hr

theorem callBuiltin_changed (i : Nat) (stage : Stage) (command : Builtin) :
    (r.changed v).callBuiltin capture i stage command =
      ((r.callBuiltin capture i stage command).1,
        (r.callBuiltin capture i stage command).2.changed v) := by
  have hopened : (if (r.changed v).isLast i then r.changed v else (r.changed v).wrapEnd i) =
      (if r.isLast i then r else r.wrapEnd i).changed v := by
    rw [isLast_changed, wrapEnd_changed, changed_ite]
  have hshut
      (r : Run) : (if (r.changed v).isLast i then (r.changed v).flush (r.changed v).wiring.out
      else (r.changed v).closeNext i) =
        (if r.isLast i then r.flush r.wiring.out else r.closeNext i).changed v := by
    rw [isLast_changed, wiring_changed, flush_changed, closeNext_changed, changed_ite]
  have hran :=
    Builtin.runFor_map (maps_host i) (upkeeps_host i) hc command stage.args (x := r.entered i stage)
    (v.upkeep _ _ (r.upkeep_entered i stage) hr)
  unfold entered at hran
  unfold callBuiltin
  dsimp only [Builtin.runUntil_none]
  rw [hopened, log_changed, note_changed, hran]
  dsimp only
  rw [note_changed, hshut, errOutlet_changed, flush_changed]

theorem runBuiltin_changed (i : Nat) (stage : Stage) (command : Builtin) :
    (r.changed v).runBuiltin capture i stage command =
      ((r.runBuiltin capture i stage command).1,
        (r.runBuiltin capture i stage command).2.changed v) := by
  unfold runBuiltin
  rw [callBuiltin_changed hc hr]
  rcases r.callBuiltin capture i stage command with ⟨(_ | _ | _) | _, r'⟩ <;> simp

theorem apt_runBuiltin (i : Nat) (stage : Stage) (command : Builtin) :
    v.apt (r.runBuiltin capture i stage command).2.session := by
  have hentered := v.upkeep _ _ (r.upkeep_entered i stage) hr
  have hran :=
    hc.enduring.runFor (upkeeps_host i) command stage.args (x := r.entered i stage) hentered
  exact v.upkeep _ _ (r.upkeep_runBuiltin capture i stage command) hran

theorem runBuiltins_changed (indexed : List (Stage × Nat)) :
    runBuiltins capture indexed (r.changed v) =
    ((runBuiltins capture indexed r).1, (runBuiltins capture indexed r).2.changed v) := by
  induction indexed generalizing r with
  | nil => rfl
  | cons stage rest ih =>
    unfold runBuiltins
    split
    · exact ih hr
    · next b _ =>
      have hfirst := apt_runBuiltin hc hr stage.2 stage.1 b
      rw [runBuiltin_changed hc hr]
      generalize r.runBuiltin capture stage.2 stage.1 b = ran at hfirst ⊢
      obtain ⟨_ | h, r'⟩ := ran
      · exact ih hfirst
      · rfl

end Builtins

@[simp] theorem gather_changed : (r.changed v).gather = r.gather.changed v := by
  simp only [gather, streams_changed, onKernel_changed, kernel_changed, pump_changed]
  rfl

@[simp] theorem awaitJob_changed (job : Job) :
    (r.changed v).awaitJob job = (r.awaitJob job).changed v := by
  simp only [awaitJob, onKernel_changed, kernel_changed]
  exact onLedger_changed _ (v.finish_ledger ..)

theorem collect_changed (jobs : List Job) (budget : Option Nat) :
    collect jobs budget (r.changed v) =
      ((collect jobs budget r).1.changed v, (collect jobs budget r).2) := by
  induction jobs generalizing r budget with
  | nil => rfl
  | cons job rest ih =>
    rcases budget with _ | _ | n
    · exact (congrArg _ (r.awaitJob_changed job)).trans (ih _ _)
    · rfl
    · exact (congrArg _ (r.awaitJob_changed job)).trans (ih _ _)

theorem drain_changed (budget : Option Nat) :
    (r.changed v).drain budget = ((r.drain budget).1.changed v, (r.drain budget).2) := by
  have hwrite (outlet : Outlet) (chunk : Bytes) (x : Outlets × Session) :
      Outlets.writeBytes chunk outlet x.1 (v.session x.2) =
        ((Outlets.writeBytes chunk outlet x.1 x.2).1,
          v.session (Outlets.writeBytes chunk outlet x.1 x.2).2) :=
    v.writeBytes chunk outlet x.1 x.2
  simp only [drain, gather_changed, pump_changed, wiring_changed, session_changed]
  rw [Pump.drain_map (f := fun x : Outlets × Session => (x.1, v.session x.2)) hwrite
    r.gather.pump budget (r.gather.wiring.outlets, r.gather.session)]
  rfl

theorem waitOnce_changed (budget : Option Nat) :
    waitOnce budget (r.changed v) = ((waitOnce budget r).1.changed v, (waitOnce budget r).2) := by
  unfold waitOnce
  rw [drain_changed]
  rcases r.drain budget with ⟨r', _ | _ | _⟩
  · exact r'.collect_changed r'.jobs _
  · rfl
  · rfl

@[simp] theorem interruptPrograms_changed :
    (r.changed v).interruptPrograms = r.interruptPrograms.changed v := by
  simp [interruptPrograms]

theorem await_changed (interrupts : List Nat) :
    await interrupts (r.changed v) = (await interrupts r).changed v := by
  have hset (r : Run) (rest : List Nat) : { r.changed v with session.interrupts := rest } =
      ({ r with session.interrupts := rest } : Run).changed v :=
    congrArg (fun s => { r.changed v with session := s }) (v.setInterrupts r.session rest)
  induction interrupts generalizing r with
  | nil => exact congrArg Prod.fst (r.waitOnce_changed none)
  | cons n rest ih =>
    cases n with
    | zero =>
      unfold await
      rw [interruptPrograms_changed, hset]
      exact ih _
    | succ n =>
      unfold await
      rw [waitOnce_changed]
      rcases waitOnce (some (n + 1)) r with ⟨r', _ | left⟩
      · dsimp only
        rw [interruptPrograms_changed, hset]
        exact ih _
      · exact hset r' _

@[simp] theorem join_changed : (r.changed v).join = r.join.changed v := by
  simp [join, await_changed, v.interrupts]

@[simp] theorem tidy_changed : (r.changed v).tidy = r.tidy.changed v := by
  simp [tidy]

@[simp] theorem abandon_changed : (r.changed v).abandon = r.abandon.changed v := by
  simp [abandon]

@[simp] theorem interruptBuiltins_changed (indexed : List (Stage × Nat)) :
    (r.changed v).interruptBuiltins indexed = (r.interruptBuiltins indexed).changed v := by
  induction indexed generalizing r with
  | nil => rfl
  | cons stage rest ih =>
    unfold interruptBuiltins
    rw [completePending_changed, changed_ite]
    exact ih _

@[simp] theorem lastStatus_changed : (r.changed v).lastStatus = r.lastStatus := rfl

end Operations

end Run

/-- What comes of a pipeline after a change. -/
def Outcome.changed (v : Change) (o : Outcome) : Outcome :=
  { o with session := v.session o.session }

@[simp] theorem Run.outcome_changed (r : Run) (ending : Except Halt Int) :
    (r.changed v).outcome ending = (r.outcome ending).changed v := rfl

/-- Run stages from the start of a run to its end. -/
def runFrom (capture : Builtin.Capture) (indexed : List (Stage × Nat)) (r : Run) : Outcome :=
  match Run.spawnAll indexed r with
  | (some h, r) => r.tidy.abandon.outcome (.error h)
  | (none, r) =>
    match Run.runBuiltins capture indexed r with
    | (none, r) => r.join.tidy.outcome (.ok r.join.tidy.lastStatus)
    | (some .interrupt, r) =>
      ((r.interruptBuiltins indexed).closeAll).interruptPrograms.join.tidy.outcome
        (.error .interrupt)
    | (some h, r) => r.tidy.abandon.outcome (.error h)

theorem runWired_eq_runFrom (capture : Builtin.Capture) (s : Session) (stages : List Stage)
    (wiring : Wiring) :
    runWired capture s stages wiring = runFrom capture stages.zipIdx (Run.init s stages wiring) :=
      rfl

/-- Stages are run in the same way after a change. -/
theorem runFrom_changed {capture : Builtin.Capture} (hc : Builtin.Unseen capture v.apt v.session)
    (indexed : List (Stage × Nat)) {r : Run} (hr : v.apt r.session) :
    runFrom capture indexed (r.changed v) = (runFrom capture indexed r).changed v := by
  have hspawned := v.upkeep _ _ (r.upkeep_spawnAll indexed) hr
  unfold runFrom
  rw [Run.spawnAll_changed hr]
  generalize Run.spawnAll indexed r = spawned at hspawned ⊢
  obtain ⟨_ | h, r₁⟩ := spawned
  · dsimp only
    rw [Run.runBuiltins_changed hc hspawned]
    rcases Run.runBuiltins capture indexed r₁ with ⟨_ | _ | _ | _, r₂⟩
    all_goals simp
  · simp

theorem Run.init_changed (s : Session) (stages : List Stage) (wiring : Wiring) :
    init (v.session s) (v.stages stages) wiring = (init s stages wiring).changed v := by
  have hledger : Ledger.ofStages (v.stages stages) = v.ledger (Ledger.ofStages stages) := by
    simp only [Ledger.ofStages, Change.ledger, v.length_stages, List.map_const']
  simp only [init, changed, v.length_stages, v.kernel, v.onKernel, hledger]

end CommandShell.Pipeline
