import CommandShell.Proofs.Halting
import CommandShell.Proofs.Scope.Standing
import CommandShell.Proofs.Spool.Sink

/-!
# Leaving the files alone

When no program runs, flushing and closing the sinks of a pipeline that nothing was written to
leaves the files, the processes and the history as they are. So a lone `exit` leaves nothing behind
but what it has saved itself.

## Main statements

- `Pipeline.leads_openRedirections`: paths lead on when the files of a stage have been opened.
- `Shell.execute_exit`: what a line has done that asks the shell to stop.
-/

namespace CommandShell

open FileSystem (Leads)

namespace Kernel

variable {k : Kernel}

/-- When all processes have ended nothing happens. -/
theorem settle_of_ended (h : ∀ t ∈ k.tasks, t.isRunning = false) : k.settle = k := by
  have htake (pid : Nat) : k.take pid = none :=
    Option.map_eq_none_iff.mpr (List.find?_eq_none.mpr fun t ht => by simp [h t ht])
  have hround (pids : List Nat) : k.round (fun _ => false) pids false = (k, false) := by
    induction pids with
    | nil => rfl
    | cons pid rest ih => simpa [round, htake] using ih
  simp [settle, settleRounds, runUntil, hround]

/-- Without processes nothing happens. -/
theorem settle_of_tasks_nil (h : k.tasks = []) : k.settle = k := settle_of_ended (by simp [h])

end Kernel

namespace Session

/-- A session whose files, processes and history are those of another one. -/
structure Rests (s s' : Session) : Prop where
  files : s'.world.files = s.world.files
  tasks : s'.world.tasks = s.world.tasks
  history : s'.history = s.history

namespace Rests

variable {s s' s'' : Session}

theorem refl (s : Session) : s.Rests s := ⟨rfl, rfl, rfl⟩

theorem trans (h : s.Rests s') (g : s'.Rests s'') : s.Rests s'' :=
  ⟨g.files.trans h.files, g.tasks.trans h.tasks, g.history.trans h.history⟩

theorem absorb (s : Session) : s.Rests s.absorb := by
  unfold Session.absorb
  split
  · exact ⟨rfl, rfl, rfl⟩
  · exact refl s

theorem note (s : Session) (level : Log.Level) (source message : String) (pid : Option Nat) :
    s.Rests (s.note level source message pid) := by
  unfold Session.note
  generalize s.log.record _ = recorded
  obtain ⟨log, _ | ⟨channel, line⟩⟩ := recorded <;> exact ⟨rfl, rfl, rfl⟩

end Rests

end Session

/-- Saving the history starts no process. -/
theorem Session.tasks_flushHistory {s s' : Session} {e : Except Fault Unit}
    (h : s.flushHistory = (e, s')) : s'.world.tasks = s.world.tasks := by
  have hedited := s.edited_flushHistory
  rw [h] at hedited
  obtain ⟨files, hworld⟩ := hedited.world
  dsimp only at hworld
  rw [hworld]

namespace Pipeline

/-- Sinks of a pipeline that nothing is left in. -/
def Outlets.Idle (o : Outlets) : Prop := ∀ outlet k, o.heldSink outlet = some k → k.Idle

/-- An operation that does nothing to the files with a sink that nothing is left in. -/
structure SinkAction.Restful (f : SinkAction) : Prop where
  idle : ∀ (k : HeldSink) (w : Kernel), k.Idle → (f k w).1.Idle
  files : ∀ (k : HeldSink) (w : Kernel), k.Idle → (f k w).2.files = w.files
  tasks : ∀ (k : HeldSink) (w : Kernel), k.Idle → (f k w).2.tasks = w.tasks

theorem restful_flush : SinkAction.Restful (fun k w => k.flush w) where
  idle k w h := by rwa [h.flush_eq]
  files k w h := by rw [h.flush_eq]
  tasks k w h := by rw [h.flush_eq]

theorem restful_close : SinkAction.Restful (fun k w => k.close w) where
  idle k w h := (h.close w).1
  files k w h := by
    obtain ⟨-, hw | hw⟩ := h.close w <;> simp [hw]
  tasks k w h := by
    obtain ⟨-, hw | hw⟩ := h.close w <;> simp [hw]

theorem Outlets.rests_act {f : SinkAction} (hf : f.Restful) (outlet : Outlet) {o : Outlets}
    (ho : o.Idle) (s : Session) : s.Rests (act f outlet o s).2 ∧ (act f outlet o s).1.Idle := by
  unfold act
  split
  · refine ⟨⟨rfl, rfl, rfl⟩, fun outlet' k hk => ho outlet' k ?_⟩
    simpa using hk
  · split
    · exact ⟨.refl s, ho⟩
    · next k hk =>
      have hidle := ho _ k hk
      have hkernel : s.Rests (s.onKernel fun _ => (f k s.world.toKernel).2) :=
        ⟨hf.files k _ hidle, hf.tasks k _ hidle, rfl⟩
      refine ⟨hkernel.trans (.absorb _), fun outlet' k' hk' => ?_⟩
      obtain ⟨-, rfl⟩ | hold := heldSink_setHeldSink hk'
      · exact hf.idle k _ hidle
      · exact ho outlet' k' hold

theorem idle_ofSession (s : Session) : (Outlets.ofSession s).Idle := by
  intro outlet k hk
  rcases outlet with c | c | _ <;> try cases c
  all_goals cases hk

/-- A session in which all ways lead on, and nothing else has happened. -/
structure Opened (s s' : Session) : Prop where
  leads : Leads s.world.files s'.world.files
  tasks : s'.world.tasks = s.world.tasks
  history : s'.history = s.history

theorem Opened.refl (s : Session) : Opened s s := ⟨.refl _, rfl, rfl⟩

theorem Opened.trans {s s' s'' : Session} (h : Opened s s') (g : Opened s' s'') : Opened s s'' :=
  ⟨h.leads.trans g.leads, g.tasks.trans h.tasks, g.history.trans h.history⟩

theorem opened_openTarget {s s' : Session} {channel : Channel} {target : FileTarget}
    {o o' : Outlets} (ho : openTarget s channel target o = .ok (o', s')) (hidle : o.Idle) :
    Opened s s' ∧ o'.Idle := by
  obtain ⟨h, k, hopen, rfl, rfl⟩ := openTarget_eq_ok ho
  have htasks := (Kernel.SameTasks.openText hopen).tasks
  have hleads := Kernel.leads_openText hopen
  refine ⟨⟨hleads, htasks, rfl⟩, fun outlet k' hk' => ?_⟩
  obtain ⟨-, rfl⟩ | hold := Outlets.heldSink_setHeldSink hk'
  · exact ⟨rfl, rfl, rfl⟩
  · exact hidle outlet k' hold

theorem opened_openErrors {s s' : Session} {err : Option ErrorTarget} {out : Outlet} {o : Outlets}
    {wiring : Wiring} (ho : openErrors s err out o = (.ok wiring, s')) (hidle : o.Idle) :
    Opened s s' ∧ wiring.outlets.Idle := by
  unfold openErrors at ho
  split at ho
  · cases ho
    exact ⟨.refl s, hidle⟩
  · cases ho
    exact ⟨.refl s, hidle⟩
  · split at ho
    · cases ho
    · next htarget =>
      cases ho
      exact opened_openTarget htarget hidle

/-- Paths lead on when the files of a stage have been opened, and nothing has been written. -/
theorem opened_openRedirections {s s' : Session} {r : Redirections} {wiring : Wiring}
    (ho : openRedirections s r = (.ok wiring, s')) : Opened s s' ∧ wiring.outlets.Idle := by
  unfold openRedirections at ho
  split at ho
  · exact opened_openErrors ho (idle_ofSession s)
  · split at ho
    · cases ho
    · next htarget =>
      obtain ⟨hopened, hidle⟩ := opened_openTarget htarget (idle_ofSession s)
      obtain ⟨hrest, hwiring⟩ := opened_openErrors ho hidle
      exact ⟨hopened.trans hrest, hwiring⟩

/-- A run whose sinks nothing is left in. -/
structure Run.Rests (r r' : Run) : Prop where
  session : r.session.Rests r'.session
  idle : r'.wiring.outlets.Idle
  stages : r'.stages = r.stages

namespace Run.Rests

variable {r r' r'' : Run}

theorem trans (h : r.Rests r') (g : r'.Rests r'') : r.Rests r'' :=
  ⟨h.session.trans g.session, g.idle, g.stages.trans h.stages⟩

theorem act {f : SinkAction} (hf : f.Restful) (hr : r.wiring.outlets.Idle) (outlet : Outlet) :
    r.Rests (r.onOutlet (Outlets.act f outlet)) := by
  obtain ⟨hs, ho⟩ := Outlets.rests_act hf outlet hr r.session
  exact ⟨hs, ho, rfl⟩

theorem flush (hr : r.wiring.outlets.Idle) (outlet : Outlet) : r.Rests (r.flush outlet) :=
  act restful_flush hr outlet

theorem close (hr : r.wiring.outlets.Idle) (outlet : Outlet) :
    r.Rests (r.onOutlet (Outlets.close outlet)) := act restful_close hr outlet

theorem closeEnd (hr : r.wiring.outlets.Idle) (e : CouplerEnd) : r.Rests (r.closeEnd e) := by
  unfold Run.closeEnd
  split
  · have hgone : r.session.Rests (r.session.onKernel fun k => k.letGo (r.endHandle e)) :=
      ⟨Kernel.files_letGo .., Kernel.tasks_letGo .., rfl⟩
    exact ⟨hgone.trans (.absorb _), hr, rfl⟩
  · exact ⟨.refl _, hr, rfl⟩

theorem closeEnds (hr : r.wiring.outlets.Idle) (ends : List CouplerEnd) :
    r.Rests (r.closeEnds ends) := by
  unfold Run.closeEnds
  induction ends generalizing r with
  | nil => exact ⟨.refl _, hr, rfl⟩
  | cons e rest ih =>
    have hfirst := closeEnd hr e
    exact hfirst.trans (ih hfirst.idle)

theorem tidy (hr : r.wiring.outlets.Idle) : r.Rests r.tidy := by
  have hall := closeEnds hr r.openEnds
  have hout := close hall.idle (.file .out)
  have herr := close hout.idle (.file .err)
  have hflush := flush herr.idle (.screen .out)
  exact hall.trans (hout.trans (herr.trans (hflush.trans (flush hflush.idle (.screen .err)))))

end Run.Rests

/-- Sinks of a run that is about to call a builtin of its only stage. -/
theorem Run.rests_log {r : Run} (hr : r.wiring.outlets.Idle) (level : Log.Level)
    (message : String) : r.Rests (r.log level message) := ⟨.note .., hr, rfl⟩

variable {capture : Builtin.Capture} {s s' : Session} {stages : List Stage} {code : Int}

theorem Opened.of_rests {s s' : Session} (h : s.Rests s') : Opened s s' :=
  ⟨h.files ▸ .refl _, h.tasks, h.history⟩

/-- The history has been saved, after files were opened and nothing else was done that matters. -/
def Saves (s after : Session) : Prop :=
  ∃ before, Opened s before ∧ s.Steady before ∧ before.standing = s.standing ∧
    before.flushHistory = (.ok (), after)

theorem Saves.of_opened {s₁ : Session} (hopened : Opened s s₁) (hsteady : s.Steady s₁)
    (hstanding : s₁.standing = s.standing) (h : Saves s₁ s') : Saves s s' := by
  obtain ⟨before, hbefore, hkept, hstands, hflush⟩ := h
  exact ⟨before, hopened.trans hbefore, hsteady.trans hkept, hstands.trans hstanding, hflush⟩

/-- Saving the history starts no process, and neither does what comes before. -/
theorem Saves.tasks (h : Saves s s') : s'.world.tasks = s.world.tasks := by
  obtain ⟨before, hopened, -, -, hflush⟩ := h
  exact (Session.tasks_flushHistory hflush).trans hopened.tasks

/-- A session that nothing has happened to that matters, but that programs have been left to
themselves. -/
def Leaves (saved s' : Session) : Prop :=
  ∃ left, saved.Rests left ∧ left.standing = saved.standing ∧
    s' = (left.onKernel Kernel.settle).absorb

/-- Without processes nothing happens when programs are left to themselves. -/
theorem Leaves.rests (h : Leaves s s') (ht : s.world.tasks = []) : s.Rests s' := by
  obtain ⟨left, hrests, -, rfl⟩ := h
  have heq : left.world.toKernel.settle = left.world.toKernel :=
    Kernel.settle_of_tasks_nil (hrests.tasks.trans ht)
  have hsettle : left.Rests (left.onKernel Kernel.settle) :=
    ⟨congrArg Kernel.files heq, congrArg Kernel.tasks heq, rfl⟩
  exact (hrests.trans hsettle).trans (.absorb _)

theorem Leaves.standing (h : Leaves s s') : s'.standing = s.standing := by
  obtain ⟨left, -, hstanding, rfl⟩ := h
  exact ((Session.Upkeep.onKernel left _).trans (.absorb _)).standing.trans hstanding

/-- A builtin that asks the shell to stop is `exit`, and it has saved the history. -/
theorem Run.runFor_exit {r r' : Run} {i : Nat} {b : Builtin} {args : List String}
    (hc : Builtin.NeverExits capture)
    (h : b.runFor (host i) capture args r = (.error (.exit code), r')) :
    ∃ after, r.session.flushHistory = (.ok (), after) ∧ r' = { r with session := after } := by
  obtain rfl := Builtin.exit_of_runFor hc (congrArg Prod.fst h)
  simp only [Builtin.runFor, Builtin.runExit, host, Builtin.Host.take] at h
  rcases hf : r.session.flushHistory with ⟨f | _, after⟩ <;> rw [hf] at h
  · cases h
  · cases h
    exact ⟨after, rfl, rfl⟩

/-- What has been done when the only stage has asked the shell to stop. -/
theorem Run.runBuiltin_exit {r r' : Run} {stage : Stage} {b : Builtin}
    (hc : Builtin.NeverExits capture) (hr : r.Within .any) (hidle : r.wiring.outlets.Idle)
    (hstages : r.stages = [stage]) (h : r.runBuiltin capture 0 stage b = (some (.exit code), r')) :
    ∃ after, Saves r.session after ∧ Run.Rests { r with session := after } r' ∧
      r'.session.standing = after.standing := by
  have hlast : r.isLast 0 = true := by simp [isLast, hstages]
  have hlog := hr.makes_log .debug ("builtin " ++ stage.command) none
  -- the call has ended in the exit, and completing the stage leaves the session alone
  obtain ⟨r₂, hcall, rfl⟩ : ∃ r₂, r.callBuiltin capture 0 stage b = (.error (.exit code), r₂) ∧
      r' = r₂.complete 0 code := by
    unfold runBuiltin at h
    split at h
    · cases h
    · next hcall =>
      split at h <;> cases h
      exact ⟨_, hcall, rfl⟩
    · next hother _ =>
      cases h
      exact absurd rfl (hother code)
  unfold callBuiltin at hcall
  rw [hlast, if_pos rfl] at hcall
  dsimp only [Builtin.runUntil_none] at hcall
  rcases hran : b.runFor (host 0) capture stage.args
    ((r.log .debug ("builtin " ++ stage.command)).note (.called 0)) with ⟨ending, r₁⟩
  rw [hran] at hcall
  dsimp only at hcall
  obtain ⟨rfl, rfl⟩ := Prod.mk.inj hcall
  obtain ⟨after, hflush, rfl⟩ := runFor_exit hc hran
  have hprepared : r.Rests (r.log .debug ("builtin " ++ stage.command)) := rests_log hidle _ _
  refine ⟨after, ⟨_, .of_rests hprepared.session, hlog.session.steady, (upkeep_log ..).standing,
    hflush⟩, ?_⟩
  generalize hr₃ : Run.note { (r.log .debug ("builtin " ++ stage.command)).note (.called 0) with
    session := after } (.returned 0 (.error (.exit code))) = r₃
  have hreturned : Run.Rests { r with session := after } r₃ := by
    subst hr₃
    exact ⟨.refl _, hidle, rfl⟩
  have hstands : r₃.session.standing = after.standing := by rw [← hr₃]; rfl
  have hlast₃ : r₃.isLast 0 = true := by simp [isLast, hreturned.stages, hstages]
  rw [hlast₃, if_pos rfl]
  have hout := Rests.flush hreturned.idle r₃.wiring.out
  have hflushed := r₃.upkeep_flush r₃.wiring.out
  generalize r₃.flush r₃.wiring.out = r₄ at hout hflushed
  have hdone := hreturned.trans (hout.trans (Rests.flush hout.idle (r₄.errOutlet 0)))
  have hkept := hflushed.trans (r₄.upkeep_flush (r₄.errOutlet 0))
  exact ⟨⟨hdone.session, hdone.idle, hdone.stages⟩, hkept.standing.trans hstands⟩

/-- What a run has done that asks the shell to stop: its only stage is `exit`. -/
theorem runWired_exit (hc : Builtin.NeverExits capture) {stage : Stage} {wiring : Wiring}
    (hwithin : wiring.outlets.Within .any) (hidle : wiring.outlets.Idle)
    (h : (runWired capture s [stage] wiring).ending = .error (.exit code)) :
    ∃ after, Saves s after ∧ Leaves after (runWired capture s [stage] wiring).session := by
  obtain ⟨hinit, hstart⟩ := Run.within_init (σ := .any) trivial s.within_any hwithin [stage]
  have hrests : s.Rests (Run.init s [stage] wiring).session := ⟨rfl, rfl, rfl⟩
  have hstands : (Run.init s [stage] wiring).session.standing = s.standing := rfl
  have hidle : (Run.init s [stage] wiring).wiring.outlets.Idle := hidle
  have hstages : (Run.init s [stage] wiring).stages = [stage] := rfl
  simp only [runWired, List.zipIdx_singleton, Run.spawnAll, Run.runBuiltins] at h ⊢
  generalize Run.init s [stage] wiring = r at *
  cases htarget : stage.target with
  | program path =>
    rw [htarget] at h
    rcases hs : r.spawn 0 stage with ⟨_ | halt, r'⟩ <;> rw [hs] at h <;> cases h
    have hhalted : (r.spawn 0 stage).1 = some (.exit code) := by rw [hs]
    obtain ⟨_, f, hf, -⟩ := Run.halts_spawn hinit hhalted
    cases hf
  | builtin b =>
    have hspawn : r.spawn 0 stage = (none, r) := by
      simp [Run.spawn, htarget, Run.closeEnds, Run.inputEnds]
    rw [htarget, hspawn] at h
    rw [hspawn]
    dsimp only at h ⊢
    rcases hb : r.runBuiltin capture 0 stage b with ⟨_ | _ | _ | f, r'⟩ <;> rw [hb] at h <;> cases h
    dsimp only
    obtain ⟨after, hsaves, hafter, hstanding⟩ := Run.runBuiltin_exit hc hinit hidle hstages hb
    have htidy := Run.Rests.tidy hafter.idle
    exact ⟨after, .of_opened (.of_rests hrests) hstart.steady hstands hsaves, r'.tidy.session,
      hafter.session.trans htidy.session, r'.upkeep_tidy.standing.trans hstanding, rfl⟩

/-- What a pipeline has done that asks the shell to stop: its only stage is `exit`, which has saved
the history after the files of the stage were opened. -/
theorem run_exit (hc : Builtin.NeverExits capture)
    (h : (run capture s stages).ending = .error (.exit code)) :
    ∃ after, Saves s after ∧ Leaves after (run capture s stages).session := by
  obtain ⟨stage, rfl⟩ : ∃ stage, stages = [stage] :=
    List.length_eq_one_iff.mp (length_of_exit h)
  obtain ⟨hsteady, hwithin⟩ :=
    makes_openRedirections (σ := .any) trivial s.within_any stage.redirections
  have hstands := (upkeep_openRedirections s stage.redirections).standing
  simp only [run, List.getLast?_singleton] at h ⊢
  rcases ho : openRedirections s stage.redirections with ⟨f | wiring, s₂⟩ <;> rw [ho]
      at h hsteady hwithin hstands
  · cases f <;> cases h
  · obtain ⟨hopened, hidle⟩ := opened_openRedirections ho
    obtain ⟨after, hsaves, hleaves⟩ := runWired_exit hc (hwithin _ rfl) hidle h
    exact ⟨after, hsaves.of_opened hopened hsteady.steady hstands, hleaves⟩

end Pipeline

namespace Shell

/-- What a line has done that asks the shell to stop: it has been recorded, and the history has been
saved with it; then programs were left to themselves. -/
theorem execute_saves {s s' : Session} {line : String} {code : Int}
    (h : execute s line = (.error (.exit code), s')) :
    ∃ after left, Text.strip line ≠ "" ∧
      Pipeline.Saves { s with history := s.history.append (Text.strip line) } after ∧
      Pipeline.Leaves after left ∧ s' = { left with lastStatus := code } := by
  unfold execute at h
  extract_lets stripped recorded at h
  split at h
  · cases h
  · next hne =>
    split at h
    · cases h
    · have hrun (s₂ : Session) (hr : runLine recorded stripped = (.error (.exit code), s₂)) :
          ∃ after, Pipeline.Saves recorded after ∧ Pipeline.Leaves after s₂ := by
        unfold runLine at hr
        split at hr
        · cases hr
        · cases hr
        · next stages hempty _ =>
          obtain ⟨hended, rfl⟩ := Prod.mk.inj hr
          exact Pipeline.run_exit (capture_ne_exit maxDepth) hended
      split at h
      · cases h
      · next s₂ hr =>
        cases h
        obtain ⟨after, hsaves, hleaves⟩ := hrun _ hr
        exact ⟨after, s₂, hne, hsaves, hleaves, rfl⟩
      · next hother =>
        exact (hother code s' h).elim

/-- What such a line has done when no program is left: nothing has happened after the history was
saved. -/
theorem execute_exit {s s' : Session} {line : String} {code : Int} (ht : s.world.tasks = [])
    (h : execute s line = (.error (.exit code), s')) :
    ∃ before after : Session, Leads s.world.files before.world.files ∧
      before.standing = { s with history := s.history.append (Text.strip line) }.standing ∧
      Text.strip line ≠ "" ∧ before.flushHistory = (.ok (), after) ∧ after.Rests s' := by
  obtain ⟨after, left, hne, hsaves, hleaves, rfl⟩ := execute_saves h
  have hrests := hleaves.rests (hsaves.tasks.trans ht)
  obtain ⟨before, hopened, -, hstanding, hflush⟩ := hsaves
  exact ⟨before, after, hopened.leads, hstanding, hne, hflush,
    ⟨hrests.files, hrests.tasks, hrests.history⟩⟩

/-- Where the entries of the history come from when a line has been executed. -/
theorem draws_execute (s : Session) (line : String) :
    (execute s line).2.environment = s.environment ∧
      ∀ entry ∈ (execute s line).2.history.entries, entry ∈ s.history.entries ∨
        (entry = Text.strip line ∧ entry ≠ "") ∨ ∃ content, entry ∈ History.entriesOf content := by
  have hsame (s' : Session) (he : s'.environment = s.environment)
      (hh : { s with history := s.history.append (Text.strip line) }.history.DrawsOn s'.history)
      (hne : Text.strip line ≠ "") : s'.environment = s.environment ∧
      ∀ entry ∈ s'.history.entries, entry ∈ s.history.entries ∨
        (entry = Text.strip line ∧ entry ≠ "") ∨ ∃ content, entry ∈ History.entriesOf content := by
    refine ⟨he, fun entry hentry => ?_⟩
    obtain hold | hread := hh entry hentry
    · rcases List.mem_append.mp hold with hold | hnew
      · exact .inl hold
      · obtain rfl := List.mem_singleton.mp hnew
        exact .inr (.inl ⟨rfl, hne⟩)
    · exact .inr (.inr hread)
  unfold execute
  extract_lets stripped recorded
  split
  · exact ⟨rfl, fun entry hentry => .inl hentry⟩
  · next hne =>
    split
    · exact hsame _ rfl (.refl _) hne
    · have hline : recorded.Steady (runLine recorded stripped).2 := by
        unfold runLine
        split
        · exact ⟨rfl, rfl, rfl, rfl, rfl, .refl _⟩
        · exact .refl _
        · exact (Pipeline.makes_run Scope.full_any (captureWithin_capture Scope.full_any maxDepth)
            recorded.within_any _).steady
      generalize runLine recorded stripped = ran at hline
      split
      · exact hsame _ hline.environment hline.history hne
      · exact hsame _ hline.environment hline.history hne
      · exact hsame _ hline.environment hline.history hne

end Shell

end CommandShell
