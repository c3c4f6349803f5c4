import CommandShell.Proofs.FileSystem.Making
import CommandShell.Proofs.Halting
import CommandShell.Proofs.Quotation
import CommandShell.Proofs.Reading
import CommandShell.Proofs.Scope.Standing

/-!
# Ways out of a line

Several ways lead to the builtin `exit`: it may be a line of its own, one stage of many, or a line
that a chat model has run. Only the first one ends the session, and it does so whenever its files
can be opened. Another way out is not asked for: a line that changes the working directory is not
ended by a status where the system does not answer the questions about the directory.

## Main statements

- `Pipeline.exit_of_run`, `Pipeline.run_exit_cases`: a pipeline asks the shell to stop if and only
  if it is a lone `exit`.
- `Shell.execute_eq_exit_iff`: the lines that end a session.
- `Shell.execute_cd_escapes`: the faults with which `cd` leaves the shell.
-/

namespace CommandShell

namespace Builtin

/-- The code that the arguments of `exit` ask for. -/
def exitCode (args : List String) : Int := (args.head?.bind Text.integer?).getD 0

/-- `exit` asks the shell to stop unless the history cannot be saved. -/
theorem ending_exit (s : Session) (args : List String) :
    (runExit s args).ending = .error (.exit (exitCode args)) ∨
      ∃ f, (runExit s args).ending = .error (.fault f) := by
  unfold runExit
  dsimp only
  split
  · exact .inl rfl
  · next f _ _ => exact .inr ⟨f, rfl⟩

/-- A name means what it names in the working directory. -/
theorem destination_of_ordinary {s : Session} {name : String} (hname : Path.Ordinary name)
    (htilde : name.toList.head? ≠ some '~') :
    destination s [name] = some (s.cwd.child name) := by
  have hexpand : s.expandHome name = name := by
    unfold Session.expandHome
    split
    · next heq => simp [heq] at htilde
    · next heq => simp [heq] at htilde
    · rfl
  have hnot : name ≠ "~" := by
    rintro rfl
    simp at htilde
  rw [destination, String.intercalate_singleton, Session.resolvePath, hexpand, hname.ofText]
  simp [hname.ne_empty, hnot, Path.join, Path.isAbsolute, Path.child]

end Builtin

namespace Pipeline

variable {capture : Builtin.Capture} {s : Session} {stages : List Stage} {stage : Stage}
  {wiring : Wiring} {code : Int}

/-- A builtin that is the only stage is called at once. -/
theorem Run.spawn_builtin (r : Run) {b : Builtin} (ht : stage.target = .builtin b) :
    r.spawn 0 stage = (none, r) := by
  simp [spawn, ht, closeEnds, inputEnds]

/-- A lone `exit` whose files are open asks the shell to stop, unless the history cannot be
saved. -/
theorem ending_runWired_exit (capture : Builtin.Capture) (s : Session) (wiring : Wiring)
    (ht : stage.target = .builtin .exit) :
    (runWired capture s [stage] wiring).ending = .error (.exit (Builtin.exitCode stage.args)) ∨
      ∃ f, (runWired capture s [stage] wiring).ending = .error (.fault f) := by
  simp only [runWired, List.zipIdx_singleton, Run.spawnAll, Run.runBuiltins,
    Run.spawn_builtin _ ht, ht]
  have hone : (Run.init s [stage] wiring).stages.length = 1 := rfl
  generalize Run.init s [stage] wiring = r at hone
  have hended : ∃ s', (r.callBuiltin capture 0 stage .exit).1 =
      (Builtin.runExit s' stage.args).ending :=
    ⟨_, rfl⟩
  obtain ⟨s', hended⟩ := hended
  rcases hcall : r.callBuiltin capture 0 stage .exit with ⟨ending, r'⟩
  rw [hcall] at hended
  dsimp only at hended
  have hcount : r'.stages.length = 1 :=
    (congrArg List.length (Run.stages_callBuiltin hcall)).trans hone
  obtain hexit | ⟨f, hf⟩ := Builtin.ending_exit s' stage.args
  · obtain rfl := hended.trans hexit
    left
    simp only [Run.runBuiltin, hcall, hcount, if_true]
    rfl
  · obtain rfl := hended.trans hf
    right
    simp only [Run.runBuiltin, hcall]
    exact ⟨f, rfl⟩

/-- A builtin by which a run is halted with an exit has asked for it. -/
theorem Run.callBuiltin_of_exit {r : Run} {i : Nat} {b : Builtin}
    (h : (r.runBuiltin capture i stage b).1 = some (.exit code)) :
    (r.callBuiltin capture i stage b).1 = .error (.exit code) := by
  unfold runBuiltin at h
  split at h
  · cases h
  · next hcall =>
    split at h <;> cases h
    rw [hcall]
  · next hcall =>
    cases h
    rw [hcall]

/-- The only stage of a pipeline that asks the shell to stop is `exit`. -/
theorem target_of_runWired_exit (hc : Builtin.NeverExits capture)
    (hwithin : wiring.outlets.Within .any)
    (h : (runWired capture s [stage] wiring).ending = .error (.exit code)) :
      stage.target = .builtin .exit := by
  obtain ⟨hinit, -⟩ := Run.within_init (σ := .any) trivial s.within_any hwithin [stage]
  simp only [runWired, List.zipIdx_singleton, Run.spawnAll, Run.runBuiltins] at h
  generalize Run.init s [stage] wiring = r at *
  cases htarget : stage.target with
  | program path =>
    rw [htarget] at h
    rcases hs : r.spawn 0 stage with ⟨_ | halt, r'⟩ <;> rw [hs] at h <;> cases h
    have hhalted : (r.spawn 0 stage).1 = some (.exit code) := by rw [hs]
    obtain ⟨_, f, hf, -⟩ := Run.halts_spawn hinit hhalted
    cases hf
  | builtin b =>
    rw [htarget, Run.spawn_builtin r htarget] at h
    dsimp only at h
    have hasked : (r.runBuiltin capture 0 stage b).1 = some (.exit code) := by
      rcases hb : r.runBuiltin capture 0 stage b with ⟨_ | _ | _ | f, r'⟩ <;> rw [hb]
          at h <;> cases h
      rfl
    obtain ⟨r₁, hmade, hended⟩ := @Run.ending_callBuiltin _ _ capture hinit trivial 0 stage b
    rw [Run.callBuiltin_of_exit hasked] at hended
    rw [Builtin.exit_of_runFor hc hended.symm]

/-- A pipeline asks the shell to stop only if it is a lone `exit` whose files can be opened, and
with the code that `exit` was given. -/
theorem exit_of_run (hc : Builtin.NeverExits capture)
    (h : (run capture s stages).ending = .error (.exit code)) :
    ∃ stage, stages = [stage] ∧ stage.target = .builtin .exit ∧
      (∃ wiring, (openRedirections s stage.redirections).1 = .ok wiring) ∧
      code = Builtin.exitCode stage.args := by
  obtain ⟨stage, rfl⟩ : ∃ stage, stages = [stage] :=
    List.length_eq_one_iff.mp (length_of_exit h)
  obtain ⟨-, hwithin⟩ := makes_openRedirections (σ := .any) trivial s.within_any stage.redirections
  simp only [run, List.getLast?_singleton] at h
  rcases ho : openRedirections s stage.redirections with ⟨f | wiring, s₂⟩ <;> rw [ho] at h hwithin
  · cases f <;> cases h
  · have htarget := target_of_runWired_exit hc (hwithin _ rfl) h
    refine ⟨stage, rfl, htarget, ⟨wiring, by rw [ho]⟩, ?_⟩
    obtain hexit | ⟨f, hf⟩ := ending_runWired_exit capture s₂ wiring htarget
    · cases h.symm.trans hexit
      rfl
    · cases h.symm.trans hf

/-- A lone `exit` whose files can be opened asks the shell to stop, unless the history cannot be
saved. -/
theorem run_exit_cases (capture : Builtin.Capture) (ht : stage.target = .builtin .exit)
    (ho : (openRedirections s stage.redirections).1 = .ok wiring) :
    (run capture s [stage]).ending = .error (.exit (Builtin.exitCode stage.args)) ∨
      ∃ f, (run capture s [stage]).ending = .error (.fault f) := by
  simp only [run, List.getLast?_singleton]
  rcases hopen : openRedirections s stage.redirections with ⟨_, s₂⟩
  rw [hopen] at ho
  obtain rfl := ho
  exact ending_runWired_exit capture s₂ wiring ht

/-- The faults of a lone `cd` are those of the builtin. -/
theorem fault_runWired_cd_iff (capture : Builtin.Capture) (ht : stage.target = .builtin .cd)
    {f : Fault} : (runWired capture s [stage] wiring).ending = .error (.fault f) ↔
      (Builtin.runCd s stage.args).ending = .error (.fault f) := by
  have hcall : ∃ s', s'.environment = s.environment ∧ s'.cwd = s.cwd ∧ s'.world = s.world ∧
      ((Run.init s [stage] wiring).callBuiltin capture 0 stage .cd).1 =
        (Builtin.runCd s' stage.args).ending := by
    have hlogged :=
      (Session.Upkeep.note s .debug "pipeline" ("builtin " ++ stage.command) none).standing
    exact ⟨_, congrArg Standing.environment hlogged, congrArg Standing.cwd hlogged,
      s.world_note .., rfl⟩
  obtain ⟨s', henv, hcwd, hworld, hended⟩ := hcall
  have hsame : (Builtin.runCd s' stage.args).ending = .error (.fault f) ↔
      (Builtin.runCd s stage.args).ending = .error (.fault f) := by
    rw [Builtin.fault_runCd_iff, Builtin.fault_runCd_iff,
      Builtin.destination_congr henv hcwd, hworld]
  rw [← hsame, ← hended]
  simp only [runWired, List.zipIdx_singleton, Run.spawnAll, Run.runBuiltins,
    Run.spawn_builtin _ ht, ht, Run.runBuiltin]
  have hexit : ∀ code, ((Run.init s [stage] wiring).callBuiltin capture 0 stage .cd).1 ≠
      .error (.exit code) :=
    hended ▸ Builtin.cd_ne_exit s' stage.args
  rcases hcalled : (Run.init s [stage] wiring).callBuiltin capture 0 stage .cd
      with ⟨(code | _ | g) | status, r⟩
  all_goals rw [hcalled] at hexit
  · exact absurd rfl (hexit code)
  · simp [Run.outcome]
  · simp [Run.outcome]
  · simp [Run.outcome]

/-- Whether the files of a stage can be opened does not depend on the history. -/
theorem openRedirections_history (s : Session) (history : History) (r : Redirections) :
    (openRedirections { s with history } r).1 = (openRedirections s r).1 := by
  have htarget (s : Session) (channel : Channel) (target : FileTarget) (o : Outlets) :
      openTarget { s with history } channel target o =
        (openTarget s channel target o).map fun opened =>
          (opened.1, { opened.2 with history }) := by
    change Except.map _ (s.world.openFile (s.resolvePath target.path) target.mode) = _
    unfold openTarget
    cases s.world.openFile (s.resolvePath target.path) target.mode <;> rfl
  have herrors (s : Session) (err : Option ErrorTarget) (out : Outlet) (o : Outlets) :
      (openErrors { s with history } err out o).1 = (openErrors s err out o).1 := by
    unfold openErrors
    rcases err with _ | target | _
    · rfl
    · dsimp only
      rw [htarget]
      rcases openTarget s .err target o with f | ⟨o', s'⟩ <;> rfl
    · rfl
  unfold openRedirections
  cases r.out with
  | none => exact herrors s _ _ _
  | some target =>
    dsimp only
    rw [show Outlets.ofSession { s with history } = Outlets.ofSession s from rfl, htarget]
    rcases openTarget s .out target (Outlets.ofSession s) with f | ⟨o', s'⟩
    · rfl
    · exact herrors s' _ _ _

end Pipeline

namespace Shell

/-- The session in which a line is run: the line has been recorded. -/
abbrev recorded (s : Session) (line : String) : Session :=
  { s with history := s.history.append line }

variable {s : Session} {line : String} {code : Int}

/-- A line that is not blank and asks for no help ends as it does when it is run. -/
theorem ending_execute (hblank : Text.strip line ≠ "")
    (hhelp : asksForHelp (Text.strip line) = false) :
    (execute s line).1 = (runLine (recorded s (Text.strip line)) (Text.strip line)).1 := by
  unfold execute
  extract_lets stripped s'
  rw [if_neg hblank, hhelp, if_neg Bool.false_ne_true]
  change _ = (runLine s' stripped).1
  rcases runLine s' stripped with ⟨(_ | _ | _) | _, _⟩ <;> rfl

/-- A line that ends the session is not blank and asks for no help. -/
theorem runs_of_exit (h : (execute s line).1 = .error (.exit code)) :
    Text.strip line ≠ "" ∧ asksForHelp (Text.strip line) = false := by
  unfold execute at h
  extract_lets stripped s' at h
  split at h
  · cases h
  · next hblank =>
    split at h
    · cases h
    · next hhelp => exact ⟨hblank, by simpa using hhelp⟩

theorem parse_recorded (s : Session) (line text : String) :
    Stage.parse (recorded s line) text = Stage.parse s text := by
  apply Stage.parse_congr <;> rfl

/-- The line that ends a session. -/
theorem exit_of_execute (h : (execute s line).1 = .error (.exit code)) :
    ∃ stage, Stage.parse s (Text.strip line) = .ok [stage] ∧ stage.target = .builtin .exit ∧
      (∃ wiring, (Pipeline.openRedirections s stage.redirections).1 = .ok wiring) ∧
      code = Builtin.exitCode stage.args := by
  obtain ⟨hblank, hhelp⟩ := runs_of_exit h
  rw [ending_execute hblank hhelp, runLine, parse_recorded] at h
  split at h
  · cases h
  · cases h
  · next stages hempty hparse =>
    obtain ⟨stage, rfl, htarget, ⟨wiring, hopen⟩, hcode⟩ :=
      Pipeline.exit_of_run (capture_ne_exit maxDepth) h
    rw [Pipeline.openRedirections_history] at hopen
    exact ⟨stage, hparse, htarget, ⟨wiring, hopen⟩, hcode⟩

/-- Such a line ends the session unless the history cannot be saved. -/
theorem execute_of_exit (hblank : Text.strip line ≠ "")
    (hhelp : asksForHelp (Text.strip line) = false) {stage : Stage}
    (hparse : Stage.parse s (Text.strip line) = .ok [stage])
    (htarget : stage.target = .builtin .exit) {wiring : Pipeline.Wiring}
    (hopen : (Pipeline.openRedirections s stage.redirections).1 = .ok wiring) :
    (execute s line).1 = .error (.exit (Builtin.exitCode stage.args)) ∨
      ∃ f, (execute s line).1 = .error (.fault f) := by
  rw [← Pipeline.openRedirections_history s (s.history.append (Text.strip line))] at hopen
  rw [ending_execute hblank hhelp, runLine, parse_recorded, hparse]
  exact Pipeline.run_exit_cases (capture maxDepth) htarget hopen

/-- What ends a session is a line that is a lone `exit` whose files can be opened, and nothing else:
no stage of a longer pipeline, no conversation with a chat model and no line that is run for one. -/
theorem execute_eq_exit_iff (s : Session) (line : String) (code : Int) :
    ((∀ f, (execute s line).1 ≠ .error (.fault f)) →
      ((execute s line).1 = .error (.exit code) ↔
        Text.strip line ≠ "" ∧ asksForHelp (Text.strip line) = false ∧
          ∃ stage, Stage.parse s (Text.strip line) = .ok [stage] ∧ stage.command = "exit" ∧
            (∃ wiring, (Pipeline.openRedirections s stage.redirections).1 = .ok wiring) ∧
            code = (stage.args.head?.bind Text.integer?).getD 0)) ∧
      (∀ stages, Stage.parse s (Text.strip line) = .ok stages →
        (2 ≤ stages.length ∨ ∃ stage ∈ stages, stage.target = .builtin .ai) →
        (execute s line).1 ≠ .error (.exit code)) ∧
      (∀ {σ : Type} (h : Builtin.Host σ) depth args x,
        (Builtin.ai.runFor h (capture depth) args x).1 ≠ .error (.exit code)) ∧
      ∀ depth line s, (capture depth line s).1 ≠ .error (.exit code) := by
  have hnamed (stage : Stage) (hparse : Stage.parse s (Text.strip line) = .ok [stage]) :
      stage.target = .builtin .exit ↔ stage.command = "exit" := by
    rw [Stage.target_of_parse hparse stage (List.mem_singleton_self stage), Stage.targetOf_eq_exit]
  refine ⟨fun hfault => ⟨fun hexit => ?_, fun hline => ?_⟩, fun stages hparse hmany hexit => ?_,
    fun h depth args x => Builtin.ai_ne_exit h (capture_ne_exit depth) args x code,
    fun depth line s => capture_ne_exit depth line s code⟩
  · obtain ⟨hblank, hhelp⟩ := runs_of_exit hexit
    obtain ⟨stage, hparse, htarget, hopen, hcode⟩ := exit_of_execute hexit
    exact ⟨hblank, hhelp, stage, hparse, (hnamed stage hparse).mp htarget, hopen, hcode⟩
  · obtain ⟨hblank, hhelp, stage, hparse, hname, ⟨wiring, hopen⟩, rfl⟩ := hline
    obtain hexit | ⟨f, hf⟩ :=
      execute_of_exit hblank hhelp hparse ((hnamed stage hparse).mpr hname) hopen
    · exact hexit
    · exact absurd hf (hfault f)
  · obtain ⟨stage, hlone, htarget, -, -⟩ := exit_of_execute hexit
    obtain rfl := Except.ok.inj (hparse.symm.trans hlone)
    obtain htwo | ⟨other, hmem, hai⟩ := hmany
    · exact absurd htwo (by simp)
    · obtain rfl := List.mem_singleton.mp hmem
      cases htarget.symm.trans hai

/-- Whether a line was ended by a fault. -/
def endsInFault : Except Halt Int → Bool
  | .error (.fault _) => true
  | _ => false

/-- Quotes around the name, a code with blanks and a redirection do not keep a line from ending the
session.
-/
theorem execute_eq_exit_iff_quoted :
    let s : Session :=
      { cwd := Path.ofParts [], world := {}, machine := ⟨fun _ _ _ => .error .notFound⟩ }
    (∀ f, (execute s " e'xi't ' +4_2' 2>&1 ").1 ≠ .error (.fault f)) ∧
      (execute s " e'xi't ' +4_2' 2>&1 ").1 = .error (.exit 42) := by
  intro s
  have hcalm : endsInFault (execute s " e'xi't ' +4_2' 2>&1 ").1 = false := by decide +kernel
  have hfault (f : Fault) : (execute s " e'xi't ' +4_2' 2>&1 ").1 ≠ .error (.fault f) := by
    intro hf
    rw [hf] at hcalm
    cases hcalm
  have hblank : Text.strip " e'xi't ' +4_2' 2>&1 " ≠ "" := by decide +kernel
  have hhelp : asksForHelp (Text.strip " e'xi't ' +4_2' 2>&1 ") = false := by decide +kernel
  have hparse : Stage.parse s (Text.strip " e'xi't ' +4_2' 2>&1 ") =
      .ok [{ command := "exit", args := [" +4_2"], target := .builtin .exit,
             text := "e'xi't ' +4_2' 2>&1",
             redirections := { err := some .merge } }] := by decide +kernel
  have hcode : 42 = (([" +4_2"].head?).bind Text.integer?).getD 0 := by decide +kernel
  exact ⟨hfault, ((execute_eq_exit_iff s _ 42).1 hfault).mpr
    ⟨hblank, hhelp, _, hparse, rfl, ⟨_, rfl⟩, hcode⟩⟩

/-- A line that is a lone `cd` is ended by the faults of the builtin. -/
theorem fault_execute_cd_iff {stage : Stage} {f : Fault} (hblank : Text.strip line ≠ "")
    (hhelp : asksForHelp (Text.strip line) = false)
    (hparse : Stage.parse s (Text.strip line) = .ok [stage]) (hname : stage.command = "cd")
    (hplain : stage.redirections = {}) :
    (execute s line).1 = .error (.fault f) ↔
    (Builtin.runCd s stage.args).ending = .error (.fault f) := by
  have ht : stage.target = .builtin .cd := by
    rw [Stage.target_of_parse hparse stage (List.mem_singleton_self stage), hname,
      Stage.targetOf_eq_builtin]
    decide
  have hopen : Pipeline.openRedirections (recorded s (Text.strip line)) stage.redirections =
      (.ok { out := .screen .out, outlets := .ofSession (recorded s (Text.strip line)) },
        recorded s (Text.strip line)) := by
    rw [hplain]
    rfl
  have hrun : (runLine (recorded s (Text.strip line)) (Text.strip line)).1 =
      (Pipeline.run (capture maxDepth) (recorded s (Text.strip line)) [stage]).ending := by
    rw [runLine, parse_recorded, hparse]
    rfl
  rw [ending_execute hblank hhelp, hrun]
  simp only [Pipeline.run, List.getLast?_singleton, hopen]
  rw [Pipeline.fault_runWired_cd_iff _ ht, Builtin.fault_runCd_iff, Builtin.fault_runCd_iff,
    Builtin.destination_congr rfl rfl]
  rfl

/-- Quoted words do not ask for help. -/
theorem asksForHelp_lineText (words : List String) :
    asksForHelp (Word.lineText [words]) = false := by
  rw [Word.lineText, List.map_singleton, String.intercalate_singleton, asksForHelp,
    Word.tokenize_commandText]
  simp

/-- A line that is a lone `cd` is not ended by a status where a question about its directory is not
answered or the way without links goes round in a circle. So it is for every name that is too long
to be one, in every working directory that may be searched. -/
theorem execute_cd_escapes (s : Session) :
    (∀ line stage f, Text.strip line ≠ "" → asksForHelp (Text.strip line) = false →
      Stage.parse s (Text.strip line) = .ok [stage] → stage.command = "cd" →
      stage.redirections = {} →
      ((execute s line).1 = .error (.fault f) ↔
        ∃ path, Builtin.destination s stage.args = some path ∧ (s.world.exists? path = .error f ∨
          s.world.isDir path = .ok true ∧ s.world.resolve path = .error f))) ∧
    ∀ place name, s.world.files.stat s.world.directory s.cwd = .ok (place, .dir) →
      place ∉ s.world.files.closed → Path.hasNull s.cwd.text = false → Path.Ordinary name →
      name.toList.head? ≠ some '~' → FileSystem.maxName < Path.size name →
      (execute s (Word.lineText [["cd", name]])).1 =
        .error (.fault (.system .nameTooLong (s.cwd.child name))) := by
  constructor
  · intro line stage f hblank hhelp hparse hname hplain
    rw [fault_execute_cd_iff hblank hhelp hparse hname hplain, Builtin.fault_runCd_iff]
  · intro place name hstat hopen hnull hname htilde hlong
    have hwords : ["cd", name] ≠ [] := by simp
    have hline := Word.strip_lineText hwords
    have hblank : Text.strip (Word.lineText [["cd", name]]) ≠ "" := by
      rw [hline]
      exact Word.lineText_ne_empty hwords
    have hhelp : asksForHelp (Text.strip (Word.lineText [["cd", name]])) = false := by
      rw [hline, asksForHelp_lineText]
    have hparse : Stage.parse s (Text.strip (Word.lineText [["cd", name]])) =
        .ok [Stage.ofWords s "cd" [name]] := by
      rw [hline, Stage.parse_lineText_singleton]
    refine (fault_execute_cd_iff hblank hhelp hparse rfl rfl).mpr (Builtin.fault_runCd_iff.mpr ?_)
    refine ⟨_, Builtin.destination_of_ordinary hname htilde, .inl ?_⟩
    rw [World.exists?, World.test, FileSystem.test_child_of_size hname hlong
      (Path.hasNull_child hnull hname.null) hstat hopen]

/-- A directory that may not be searched, and a name that is too long. -/
theorem execute_cd_escapes_long :
    let s : Session :=
      { cwd := Path.ofParts [],
        world := { files := { nodes := [(["x"], .dir)], closed := [["x"]] } }
        machine := ⟨fun _ _ _ => .error .notFound⟩ }
    let name := String.ofList (List.replicate 300 'a')
    (execute s " cd x/y").1 =
      .error (.fault (.system .permissionDenied (Path.ofParts ["x", "y"]))) ∧
      (execute s (Word.lineText [["cd", name]])).1 =
        .error (.fault (.system .nameTooLong ((Path.ofParts []).child name))) := by
  intro s name
  have hname : Path.Ordinary name := Path.ordinary_replicate (by decide) (by decide) (by decide)
  constructor
  · have hparse : Stage.parse s (Text.strip " cd x/y") =
        .ok [{ command := "cd", args := ["x/y"], target := .builtin .cd, text := "cd x/y" }] := by
      decide +kernel
    refine ((execute_cd_escapes s).1 _ _ _ (by decide +kernel) (by decide +kernel) hparse rfl
      rfl).mpr ?_
    refine ⟨Path.ofParts ["x", "y"], by decide +kernel, .inl ?_⟩
    have hx : ¬ FileSystem.maxName < (Utf8.encode "x").length := by decide
    have hlocate : s.world.files.locate .follow [] (Path.ofParts ["x", "y"]) =
        .error .permissionDenied := by
      rw [FileSystem.locate, if_neg (by decide)]
      simp [s, hx, Path.ofParts, Path.isAbsolute, FileSystem.walk, FileSystem.get?]
    have hnull : Path.hasNull (Path.ofParts ["x", "y"]).text = false := by decide
    have htest : s.world.files.test s.world.directory (Path.ofParts ["x", "y"]) (fun _ => true) =
        .error .permissionDenied := by
      rw [FileSystem.test, hnull, FileSystem.stat, hlocate]
      rfl
    rw [World.exists?, World.test, htest]
  · have hstat : s.world.files.stat s.world.directory s.cwd = .ok ([], .dir) := by
      unfold FileSystem.stat FileSystem.locate
      rw [if_neg (by decide)]
      unfold FileSystem.walk
      rfl
    have hstart : ¬ name.toList.head? = some '~' := by
      simp only [name]
      rw [String.toList_ofList, List.head?_replicate]
      decide
    have hsize : Path.size name = 300 := Path.size_replicate rfl 300
    have hlong : FileSystem.maxName < Path.size name := by
      rw [hsize]
      decide
    exact (execute_cd_escapes s).2 [] name hstat (by decide) (by decide) hname hstart hlong

end Shell

end CommandShell
