import CommandShell.Proofs.Pump
import CommandShell.Proofs.Scope.Pipeline

/-!
# The upkeep of a session

To run its stages a pipeline acts on the system, shows texts, writes records in the log and takes
interrupts. Whatever else comes to change in its session is changed by a builtin, neither by what is
written nor by programs nor by the waiting for them.

## Main statements

- `Pipeline.upkeep_openRedirections`: the files of a stage are opened.
- `Pipeline.upkeep_beforeBuiltins`: the programs of a pipeline are started.
- `Pipeline.Run.upkeep_runBuiltin`: a builtin of a stage is called, and what it has written is
  handed on.
- `Pipeline.upkeep_afterBuiltins`: the programs are waited for, and what is open is closed.
-/

namespace CommandShell

namespace Session

/-- A session that differs from another one in nothing but the system, the screen, the log and the
interrupts that are still to come. -/
def Upkeep (s s' : Session) : Prop :=
  ∃ (k : Kernel) (screen : Screen) (log : Log Channel) (interrupts : List Nat),
    s' = { s with world := { s.world with toKernel := k }, screen, log, interrupts }

namespace Upkeep

variable {s s' s'' : Session}

theorem refl (s : Session) : s.Upkeep s := ⟨_, _, _, _, rfl⟩

theorem trans (h : s.Upkeep s') (g : s'.Upkeep s'') : s.Upkeep s'' := by
  obtain ⟨_, _, _, _, rfl⟩ := h
  obtain ⟨_, _, _, _, rfl⟩ := g
  exact ⟨_, _, _, _, rfl⟩

theorem onKernel (s : Session) (f : Kernel → Kernel) : s.Upkeep (s.onKernel f) := ⟨_, _, _, _, rfl⟩

theorem shown (s : Session) (screen : Screen) : s.Upkeep { s with screen } := ⟨_, _, _, _, rfl⟩

theorem interrupted (s : Session) (interrupts : List Nat) : s.Upkeep { s with interrupts } :=
  ⟨_, _, _, _, rfl⟩

theorem absorb (s : Session) : s.Upkeep s.absorb := by
  unfold Session.absorb
  split
  · exact ⟨_, _, _, _, rfl⟩
  · exact .refl s

theorem note (s : Session) (level : Log.Level) (source message : String) (pid : Option Nat) :
    s.Upkeep (s.note level source message pid) := by
  unfold Session.note
  generalize s.log.record _ = recorded
  obtain ⟨log, _ | ⟨channel, line⟩⟩ := recorded <;> exact ⟨_, _, _, _, rfl⟩

end Upkeep

end Session

namespace Builtin

variable {σ : Type} {h : Host σ}

/-- A host that keeps the session it is given but for the upkeep when it writes. -/
structure Host.Upkeeps (h : Host σ) : Prop where
  session_setSession : ∀ s x, h.session (h.setSession s x) = s
  write : ∀ channel text x, (h.session x).Upkeep (h.session (h.write channel text x))

namespace Host.Upkeeps

theorem writeUnits (hh : h.Upkeeps) {channel : Channel} {units : CodeUnits} {x y : σ}
    (hw : h.writeUnits channel units x = .ok y) : (h.session x).Upkeep (h.session y) := by
  unfold Host.writeUnits at hw
  split at hw
  · cases hw
  · cases hw
    exact hh.write ..

/-- Giving such a host the reply of a builtin is upkeep. -/
theorem take (hh : h.Upkeeps) (reply : Reply) (x : σ) :
    reply.session.Upkeep (h.session (h.take reply x).2) := by
  have hwrites (writes : List Emission) (y : σ) :
      (h.session y).Upkeep (h.session (writes.foldl (fun x e => h.write e.1 e.2 x) y)) := by
    induction writes generalizing y with
    | nil => exact .refl _
    | cons e rest ih => exact (hh.write ..).trans (ih _)
  have hset := hwrites reply.writes (h.setSession reply.session x)
  rwa [hh.session_setSession] at hset

theorem writeLines (hh : h.Upkeeps) (channel : Channel) (lines : List CodeUnits) (x : σ) :
    (h.session x).Upkeep (h.session (h.writeLines channel lines x).2) := by
  induction lines generalizing x with
  | nil => exact .refl _
  | cons line rest ih =>
    unfold Host.writeLines
    split
    · next y hw => exact (hh.writeUnits hw).trans (ih y)
    · exact .refl _

end Host.Upkeeps

end Builtin

namespace Pipeline

theorem Outlets.upkeep_act (f : SinkAction) (outlet : Outlet) (o : Outlets) (s : Session) :
    s.Upkeep (act f outlet o s).2 := by
  unfold act
  split
  · exact .shown s _
  · split
    · exact .refl s
    · exact (Session.Upkeep.onKernel s _).trans (.absorb _)

theorem upkeep_openTarget {s s' : Session} {channel : Channel} {target : FileTarget}
    {o o' : Outlets} (h : openTarget s channel target o = .ok (o', s')) : s.Upkeep s' := by
  obtain ⟨handle, k, -, -, rfl⟩ := openTarget_eq_ok h
  exact .onKernel s _

theorem upkeep_openErrors (s : Session) (err : Option ErrorTarget) (out : Outlet) (o : Outlets) :
    s.Upkeep (openErrors s err out o).2 := by
  unfold openErrors
  split
  · exact .refl s
  · exact .refl s
  · split
    · exact Outlets.upkeep_act ..
    · next h => exact upkeep_openTarget h

/-- Opening the files of a stage is upkeep. -/
theorem upkeep_openRedirections (s : Session) (r : Redirections) :
    s.Upkeep (openRedirections s r).2 := by
  unfold openRedirections
  split
  · exact upkeep_openErrors ..
  · split
    · exact .refl s
    · next h => exact (upkeep_openTarget h).trans (upkeep_openErrors ..)

namespace Run

variable (r : Run)

/-- What is upkeep at each step of a fold is upkeep at its end. -/
theorem upkeep_foldl {α : Type} {f : Run → α → Run}
    (hf : ∀ (r : Run) (a : α), r.session.Upkeep (f r a).session) (as : List α) :
      r.session.Upkeep (as.foldl f r).session := by
  induction as generalizing r with
  | nil => exact .refl _
  | cons a rest ih => exact (hf r a).trans (ih _)

theorem upkeep_onKernel (f : Kernel → Kernel) : r.session.Upkeep (r.onKernel f).session :=
  (Session.Upkeep.onKernel r.session f).trans (.absorb _)

theorem upkeep_act (f : SinkAction) (outlet : Outlet) :
    r.session.Upkeep (r.onOutlet (Outlets.act f outlet)).session := Outlets.upkeep_act ..

theorem upkeep_write (outlet : Outlet) (text : String) :
    r.session.Upkeep (r.write outlet text).session :=
  r.upkeep_act _ outlet

theorem upkeep_flush (outlet : Outlet) : r.session.Upkeep (r.flush outlet).session :=
  r.upkeep_act _ outlet

theorem upkeep_close (outlet : Outlet) :
    r.session.Upkeep (r.onOutlet (Outlets.close outlet)).session :=
  r.upkeep_act _ outlet

theorem upkeep_log (level : Log.Level) (message : String) (pid : Option Nat) :
    r.session.Upkeep (r.log level message pid).session := .note ..

section Ends

theorem upkeep_closeEnd (e : CouplerEnd) : r.session.Upkeep (r.closeEnd e).session := by
  unfold closeEnd
  split
  · exact r.upkeep_onKernel _
  · exact .refl _

theorem upkeep_closeEnds (ends : List CouplerEnd) : r.session.Upkeep (r.closeEnds ends).session :=
  r.upkeep_foldl upkeep_closeEnd ends

theorem upkeep_closeAll : r.session.Upkeep r.closeAll.session := r.upkeep_closeEnds _

theorem upkeep_closeNext (i : Nat) : r.session.Upkeep (r.closeNext i).session :=
  r.upkeep_close .next

end Ends

section Starting

theorem upkeep_notFound (i : Nat) (stage : Stage) : r.session.Upkeep (r.notFound i stage).session :=
  (r.upkeep_write ..).trans ((upkeep_flush ..).trans (upkeep_log ..))

theorem upkeep_cannotStart (i : Nat) (stage : Stage) (e : StartError) :
    r.session.Upkeep (r.cannotStart i stage e).session :=
  (r.upkeep_log ..).trans ((upkeep_write ..).trans (upkeep_flush ..))

theorem upkeep_attach (streams : List (Nat × Outlet)) :
    r.session.Upkeep (r.attach streams).session :=
  by
  unfold attach
  refine r.upkeep_foldl (fun r stream => ?_) streams
  exact .refl r.session

theorem upkeep_routeTo (outlet : Outlet) : r.session.Upkeep (r.routeTo outlet).1.session := by
  have hflush := r.upkeep_flush outlet
  unfold routeTo
  generalize r.flush outlet = r₁ at hflush
  dsimp only
  split
  · exact hflush
  · exact hflush.trans (r₁.upkeep_onKernel _)

theorem upkeep_descriptorsFor (i : Nat) (merges : Bool) :
    r.session.Upkeep (r.descriptorsFor i merges).1.session := by
  have hout : r.session.Upkeep
      (if r.isLast i then r.routeTo r.wiring.out
        else (r, r.endHandle (.write i), [])).1.session := by
    split
    · exact r.upkeep_routeTo _
    · exact .refl _
  unfold descriptorsFor
  generalize (if r.isLast i then r.routeTo r.wiring.out else (r, r.endHandle (.write i), [])) =
    routed
    at hout ⊢
  obtain ⟨r₁, out, outStreams⟩ := routed
  dsimp only at hout ⊢
  split
  · exact hout
  · exact hout.trans (r₁.upkeep_routeTo _)

theorem upkeep_handAll (i : Nat) (ends : List CouplerEnd) :
    r.session.Upkeep (r.handAll i ends).session :=
  by
  unfold handAll
  refine r.upkeep_foldl (fun r e => ?_) ends
  exact .refl r.session

theorem upkeep_spawnProgram (i : Nat) (stage : Stage) (path : Path) :
    r.session.Upkeep (r.spawnProgram i stage path).2.session := by
  have hrouted := r.upkeep_descriptorsFor i stage.redirections.merges
  unfold spawnProgram
  extract_lets ends
  generalize r.descriptorsFor i stage.redirections.merges = routed at hrouted
  obtain ⟨r₁, descriptors, streams⟩ := routed
  have hhanded := hrouted.trans (r₁.upkeep_handAll i ends)
  dsimp only at hhanded ⊢
  generalize r₁.handAll i ends = r₂ at hhanded
  split
  · exact hhanded.trans (r₂.upkeep_closeEnds ends)
  · split
    · exact hhanded.trans ((r₂.upkeep_cannotStart ..).trans (upkeep_closeEnds ..))
    · next process _ =>
      let r₃ := (r₂.onKernel fun _ => (r₂.kernel.spawn process descriptors).2).onLedger
        fun l => l.start i r₂.kernel.nextPid
      have hspawned : r₂.session.Upkeep r₃.session := r₂.upkeep_onKernel _
      have hclosed := hspawned.trans (r₃.upkeep_closeEnds ends)
      exact hhanded.trans (hclosed.trans ((upkeep_log ..).trans (upkeep_attach ..)))

theorem upkeep_spawn (i : Nat) (stage : Stage) : r.session.Upkeep (r.spawn i stage).2.session := by
  unfold spawn
  split
  · exact r.upkeep_closeEnds _
  · exact (r.upkeep_notFound i stage).trans (upkeep_closeEnds ..)
  · exact r.upkeep_spawnProgram i stage _

/-- Starting the programs of a pipeline is upkeep. -/
theorem upkeep_spawnAll (indexed : List (Stage × Nat)) :
    r.session.Upkeep (spawnAll indexed r).2.session := by
  induction indexed generalizing r with
  | nil => exact .refl _
  | cons stage rest ih =>
    have hfirst := r.upkeep_spawn stage.2 stage.1
    unfold spawnAll
    split
    · next hs =>
      rw [hs] at hfirst
      exact hfirst.trans (ih _)
    · exact hfirst

end Starting

section Calling

/-- A run takes the session that a builtin gives it, and writes with upkeep only. -/
theorem upkeeps_host (i : Nat) : (host i).Upkeeps where
  session_setSession _ _ := rfl
  write channel text r := r.upkeep_write (r.outletFor i channel) text

/-- The run in which the builtin of a stage is called. -/
def entered (r : Run) (i : Nat) (stage : Stage) : Run :=
  ((if r.isLast i then r else r.wrapEnd i).log .debug ("builtin " ++ stage.command)).note
    (.called i)

theorem upkeep_entered (i : Nat) (stage : Stage) :
    r.session.Upkeep (r.entered i stage).session := by
  have hwrap : (if r.isLast i then r else r.wrapEnd i).session = r.session := by split <;> rfl
  have hlog :=
    upkeep_log (if r.isLast i then r else r.wrapEnd i) .debug ("builtin " ++ stage.command) none
  exact hwrap ▸ hlog

/-- What follows a builtin of a stage is upkeep. -/
theorem upkeep_callBuiltin (capture : Builtin.Capture) (i : Nat) (stage : Stage) (b : Builtin) :
    (b.runFor (host i) capture stage.args (r.entered i stage)).2.session.Upkeep
      (r.callBuiltin capture i stage b).2.session := by
  unfold callBuiltin entered
  generalize (if r.isLast i then r else r.wrapEnd i) = r₁
  dsimp only [Builtin.runUntil_none]
  generalize b.runFor (host i) capture stage.args _ = ran
  obtain ⟨ending, r₂⟩ := ran
  dsimp only
  split
  · exact (upkeep_flush (r₂.note (.returned i ending)) _).trans (upkeep_flush ..)
  · exact (upkeep_closeNext (r₂.note (.returned i ending)) i).trans (upkeep_flush ..)

theorem upkeep_runBuiltin (capture : Builtin.Capture) (i : Nat) (stage : Stage) (b : Builtin) :
    (b.runFor (host i) capture stage.args (r.entered i stage)).2.session.Upkeep
      (r.runBuiltin capture i stage b).2.session := by
  have hcall := r.upkeep_callBuiltin capture i stage b
  unfold runBuiltin
  split <;> next h =>
    rw [h] at hcall
    exact hcall

end Calling

section Waiting

theorem upkeep_gather : r.session.Upkeep r.gather.session := by
  unfold gather
  generalize hr : r.onKernel _ = r₁
  have hrun : r.session.Upkeep r₁.session := hr ▸ r.upkeep_onKernel _
  exact hrun.trans (r₁.upkeep_onKernel _)

theorem upkeep_drain (budget : Option Nat) : r.session.Upkeep (r.drain budget).1.session :=
  Pump.drain_invariant (P := fun x : Outlets × Session => r.session.Upkeep x.2)
    (fun _ _ _ hx => hx.trans (Outlets.upkeep_act ..)) r.gather.pump budget
    (x := (r.gather.wiring.outlets, r.gather.session)) r.upkeep_gather

theorem upkeep_awaitJob (job : Job) : r.session.Upkeep (r.awaitJob job).session :=
  r.upkeep_onKernel _

theorem upkeep_collect (jobs : List Job) (budget : Option Nat) :
    r.session.Upkeep (collect jobs budget r).1.session := by
  induction jobs generalizing r budget with
  | nil => exact .refl _
  | cons job rest ih =>
    have hnext := r.upkeep_awaitJob job
    rcases budget with _ | _ | n
    · exact hnext.trans (ih _ _)
    · exact .refl _
    · exact hnext.trans (ih _ _)

theorem upkeep_waitOnce (budget : Option Nat) : r.session.Upkeep (waitOnce budget r).1.session := by
  have hdrain := r.upkeep_drain budget
  unfold waitOnce
  split <;> next hd =>
    rw [hd] at hdrain
    first
    | exact hdrain.trans (upkeep_collect ..)
    | exact hdrain

theorem upkeep_interruptPrograms : r.session.Upkeep r.interruptPrograms.session :=
  r.upkeep_onKernel _

theorem upkeep_await (interrupts : List Nat) : r.session.Upkeep (await interrupts r).session := by
  induction interrupts generalizing r with
  | nil => exact r.upkeep_waitOnce none
  | cons n rest ih =>
    have hnext (r : Run) :
        r.session.Upkeep (await rest
          { r.interruptPrograms with session.interrupts := rest }).session :=
      (r.upkeep_interruptPrograms.trans (.interrupted _ rest)).trans (ih _)
    cases n with
    | zero => exact hnext r
    | succ n =>
      have hwait := r.upkeep_waitOnce (some (n + 1))
      unfold await
      split
      · next r' hw =>
        rw [hw] at hwait
        exact hwait.trans (hnext r')
      · next hw =>
        rw [hw] at hwait
        exact hwait.trans (.interrupted _ _)

/-- Waiting for the programs is upkeep. -/
theorem upkeep_join : r.session.Upkeep r.join.session :=
  ((r.note (.waiting r.kernel.held)).upkeep_await _).trans (upkeep_onKernel ..)

theorem upkeep_interruptBuiltins (indexed : List (Stage × Nat)) :
    r.session.Upkeep (r.interruptBuiltins indexed).session := by
  induction indexed generalizing r with
  | nil => exact .refl _
  | cons stage rest ih =>
    unfold interruptBuiltins
    split
    · exact ih (r.completePending stage.2 statusInterrupted)
    · exact ih r

end Waiting

/-- Closing what is open is upkeep. -/
theorem upkeep_tidy : r.session.Upkeep r.tidy.session :=
  r.upkeep_closeAll.trans ((upkeep_close ..).trans ((upkeep_close ..).trans
    ((upkeep_flush ..).trans (upkeep_flush ..))))

theorem upkeep_abandon : r.session.Upkeep r.abandon.session := r.upkeep_onKernel _

end Run

section Wired

variable (capture : Builtin.Capture) (s : Session) (stages : List Stage) (wiring : Wiring)

/-- What comes before the builtins of a pipeline is upkeep. -/
theorem upkeep_beforeBuiltins :
    s.Upkeep (Run.spawnAll stages.zipIdx (Run.init s stages wiring)).2.session := by
  have hinit : s.Upkeep (Run.init s stages wiring).session := ⟨_, _, _, _, rfl⟩
  exact hinit.trans (Run.upkeep_spawnAll ..)

/-- What comes after the builtins of a pipeline is upkeep, however they have ended. -/
theorem upkeep_afterBuiltins {r : Run}
    (h : Run.spawnAll stages.zipIdx (Run.init s stages wiring) = (none, r)) :
    (Run.runBuiltins capture stages.zipIdx r).2.session.Upkeep
      (runWired capture s stages wiring).session := by
  simp only [runWired, h]
  generalize Run.runBuiltins capture stages.zipIdx r = ran
  obtain ⟨_ | _ | _ | f, r⟩ := ran
  · exact r.upkeep_join.trans (Run.upkeep_tidy _)
  · exact r.upkeep_tidy.trans (Run.upkeep_abandon _)
  · have hmarked := (r.upkeep_interruptBuiltins stages.zipIdx).trans (Run.upkeep_closeAll _)
    have hsent := hmarked.trans (Run.upkeep_interruptPrograms _)
    exact hsent.trans ((Run.upkeep_join _).trans (Run.upkeep_tidy _))
  · exact r.upkeep_tidy.trans (Run.upkeep_abandon _)

/-- A pipeline that is halted before its builtins does nothing but upkeep. -/
theorem upkeep_runWired_halted {halt : Halt} {r : Run}
    (h : Run.spawnAll stages.zipIdx (Run.init s stages wiring) = (some halt, r)) :
    s.Upkeep (runWired capture s stages wiring).session := by
  have hbefore := upkeep_beforeBuiltins s stages wiring
  simp only [runWired, h] at hbefore ⊢
  exact hbefore.trans (r.upkeep_tidy.trans (Run.upkeep_abandon _))

end Wired

end Pipeline

end CommandShell
