import CommandShell.Proofs.Scope.Upkeep

/-!
# Where a session stands

What a session goes by when it looks for its history file, and the history itself, is no part of the
upkeep that a pipeline does in its session. So nothing but builtins changes it.

## Main statements

- `Session.historyFile_of_standing`: the history file goes by where a session stands.
- `Pipeline.standing_run_builtin`: a lone builtin decides where the session stands after its line.
-/

namespace CommandShell

/-- What a history file is looked up and kept by, and the history that is kept in it. -/
structure Standing where
  environment : Environment
  cwd : Path
  /-- The working directory of the process. -/
  directory : Place
  /-- What the system refuses the process at each place. -/
  restraint : Place → FileSystem.Restraint
  history : History

namespace Session

/-- Where a session stands. -/
def standing (s : Session) : Standing :=
  ⟨s.environment, s.cwd, s.world.directory, s.world.restraint, s.history⟩

variable {s s' : Session}

theorem cwd_of_standing (h : s'.standing = s.standing) : s'.cwd = s.cwd := congrArg Standing.cwd h

theorem history_of_standing (h : s'.standing = s.standing) : s'.history = s.history :=
  congrArg Standing.history h

/-- The history file goes by where a session stands. -/
theorem historyFile_of_standing (h : s'.standing = s.standing) :
    s'.historyFile = s.historyFile := by
  have henvironment : s'.environment = s.environment := congrArg Standing.environment h
  unfold historyFile
  rw [henvironment]
  cases s.environment.nonempty? "HISTFILE" with
  | none => rfl
  | some text => simp [resolvePath, expandHome, home, henvironment, cwd_of_standing h]

/-- Upkeep does not move a session. -/
theorem Upkeep.standing (h : s.Upkeep s') : s'.standing = s.standing := by
  obtain ⟨_, _, _, _, rfl⟩ := h
  rfl

/-- A record in the log changes nothing outside of the session. -/
@[simp] theorem world_note (s : Session) (level : Log.Level) (source message : String)
    (pid : Option Nat) : (s.note level source message pid).world = s.world := by
  unfold note
  generalize s.log.record _ = recorded
  obtain ⟨log, _ | ⟨channel, line⟩⟩ := recorded <;> rfl

end Session

namespace Pipeline

namespace Run

variable (r : Run)

/-- The reply of a builtin decides where the session stands, whatever is written. -/
theorem standing_take (i : Nat) (reply : Builtin.Reply) :
    ((host i).take reply r).2.session.standing = reply.session.standing :=
      ((upkeeps_host i).take reply r).standing

/-- Where the session stands after a builtin of the last stage. -/
theorem standing_runBuiltin (capture : Builtin.Capture) (i : Nat) (stage : Stage) (b : Builtin)
    (hlast : r.isLast i = true) :
    (r.runBuiltin capture i stage b).2.session.standing =
      (b.runFor (host i) capture stage.args
        ((r.log .debug ("builtin " ++ stage.command)).note (.called i))).2.session.standing := by
  have hentered : r.entered i stage =
      (r.log .debug ("builtin " ++ stage.command)).note (.called i) := by
    rw [entered, if_pos hlast]
  rw [← hentered]
  exact (r.upkeep_runBuiltin capture i stage b).standing

end Run

variable {s s' : Session} {stage : Stage} {b : Builtin} {wiring : Wiring}

/-- A lone builtin decides where the session stands after its line. -/
theorem standing_run_builtin (capture : Builtin.Capture) (ht : stage.target = .builtin b)
    (ho : openRedirections s stage.redirections = (.ok wiring, s')) :
    (run capture s [stage]).session.standing =
      (b.runFor (Run.host 0) capture stage.args
        (((Run.init s' [stage] wiring).log .debug ("builtin " ++ stage.command)).note
          (.called 0))).2.session.standing := by
  have hspawn : (Run.init s' [stage] wiring).spawn 0 stage =
      (none, Run.init s' [stage] wiring) := by
    simp [Run.spawn, ht, Run.closeEnds, Run.inputEnds]
  have hran := (Run.init s' [stage] wiring).standing_runBuiltin capture 0 stage b rfl
  have hleft := upkeep_afterBuiltins capture s' [stage] wiring (r := Run.init s' [stage] wiring)
    (by simp only [List.zipIdx_singleton, Run.spawnAll, hspawn])
  have hone : (Run.runBuiltins capture [(stage, 0)] (Run.init s' [stage] wiring)).2 =
      ((Run.init s' [stage] wiring).runBuiltin capture 0 stage b).2 := by
    simp only [Run.runBuiltins, ht]
    rcases (Run.init s' [stage] wiring).runBuiltin capture 0 stage b with ⟨_ | _, r⟩ <;> rfl
  rw [List.zipIdx_singleton, hone] at hleft
  simp only [run, List.getLast?_singleton, ho]
  exact hleft.standing.trans hran

end Pipeline

end CommandShell
