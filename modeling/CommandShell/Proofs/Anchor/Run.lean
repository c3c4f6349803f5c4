import CommandShell.Proofs.Anchor.Session
import CommandShell.Proofs.CommandNames
import CommandShell.Proofs.Unseen
import CommandShell.Proofs.Whereabouts

/-!
# Lines of an anchored session

Wherever the process has its working directory, the lines of an anchored session do the same: they
come to the same end, show the same, and leave behind the same files and the same session. The file
that a command name is found to lead to is then the one that is loaded, from the working directory
of the session.

## Main statements

- `Pipeline.run_seatedIn`: a pipeline does not see the working directory of the process.
- `Session.locates_of_parse`: the programs of a line are named by paths that lead to one file from
  everywhere.
- `Shell.executeAll_seatedIn`: nor do the lines of an anchored session.
-/

namespace CommandShell

open Session (Anchored)

variable {s : Session} (d : Place)

namespace Pipeline

theorem Outlets.act_seatedIn (f : SinkAction) (outlet : Outlet) (o : Outlets) (s : Session) :
    act f outlet o (s.seatedIn d) = ((act f outlet o s).1, (act f outlet o s).2.seatedIn d) := by
  cases outlet with
  | screen channel => rfl
  | file channel =>
    cases hk : o.heldSink (.file channel) with
    | none => simp only [act, hk]
    | some k =>
      have hkernel : (s.seatedIn d).world.toKernel = s.world.toKernel := rfl
      simp only [act, hk, hkernel, s.onKernel_seatedIn, Session.absorb_seatedIn]
  | next =>
    cases hk : o.heldSink .next with
    | none => simp only [act, hk]
    | some k =>
      have hkernel : (s.seatedIn d).world.toKernel = s.world.toKernel := rfl
      simp only [act, hk, hkernel, s.onKernel_seatedIn, Session.absorb_seatedIn]

/-- A program is started in the working directory of the session. -/
theorem start_seatedIn (h : s.Anchored) (arguments : List String) (executable : Path) :
    start (s.seatedIn d) arguments executable = start s arguments executable := by
  have hplace : startPlace (s.seatedIn d) = startPlace s := by
    have hstat : (s.seatedIn d).world.files.stat (s.seatedIn d).world.directory (s.seatedIn d).cwd =
        s.world.files.stat s.world.directory s.cwd := FileSystem.stat_base h.cwd ..
    simp only [startPlace, hstat]
    rfl
  simp only [start, hplace]
  rfl

theorem openTarget_seatedIn (h : s.Anchored) (channel : Channel) (target : FileTarget)
    (o : Outlets) : openTarget (s.seatedIn d) channel target o =
      (openTarget s channel target o).map fun opened => (opened.1, opened.2.seatedIn d) := by
  unfold openTarget
  rw [s.resolvePath_seatedIn, s.world_seatedIn, World.openFile_seatedIn (h.resolvePath _)]
  rcases s.world.openFile (s.resolvePath target.path) target.mode with f | ⟨handle, w⟩ <;> rfl

theorem openErrors_seatedIn (h : s.Anchored) (err : Option ErrorTarget) (out : Outlet)
    (o : Outlets) :
    openErrors (s.seatedIn d) err out o =
      ((openErrors s err out o).1, (openErrors s err out o).2.seatedIn d) := by
  unfold openErrors
  rcases err with _ | target | _
  · rfl
  · dsimp only
    rw [openTarget_seatedIn d h]
    rcases openTarget s .err target o with f | ⟨o', s'⟩
    · exact congrArg (fun x => (Except.error f, x.2)) (Outlets.act_seatedIn d _ (.file .out) o s)
    · rfl
  · rfl

theorem openRedirections_seatedIn (h : s.Anchored) (r : Redirections) :
    openRedirections (s.seatedIn d) r =
      ((openRedirections s r).1, (openRedirections s r).2.seatedIn d) := by
  have hsinks : Outlets.ofSession (s.seatedIn d) = Outlets.ofSession s := rfl
  unfold openRedirections
  rw [hsinks]
  rcases r.out with _ | target
  · exact openErrors_seatedIn d h r.err _ _
  · dsimp only
    rw [openTarget_seatedIn d h]
    rcases hopened : openTarget s .out target (Outlets.ofSession s) with f | ⟨o, s'⟩
    · rfl
    · exact openErrors_seatedIn d (h.of_upkeep (upkeep_openTarget hopened)) r.err _ _

/-- A pipeline does not see the working directory of the process. -/
def Change.seatedIn : Change where
  stages l := l
  session := Session.seatedIn d
  apt := Anchored
  upkeep _ _ hkept h := h.of_upkeep hkept
  commands _ := rfl
  kernel _ := rfl
  environment _ := rfl
  interrupts _ := rfl
  input _ := rfl
  start _ arguments path h := start_seatedIn d h arguments path
  setInterrupts _ _ := rfl
  note := Session.note_seatedIn d
  onKernel := Session.onKernel_seatedIn d
  absorb := Session.absorb_seatedIn d
  write _ := Outlets.act_seatedIn d _
  writeBytes _ := Outlets.act_seatedIn d _
  flush := Outlets.act_seatedIn d _
  close := Outlets.act_seatedIn d _

/-- What comes of a pipeline in a process with another working directory. -/
def Outcome.seatedIn (o : Outcome) : Outcome := { o with session := o.session.seatedIn d }

/-- A pipeline does the same wherever the process has its working directory. -/
theorem run_seatedIn {capture : Builtin.Capture}
    (hc : Builtin.Unseen capture Anchored (Session.seatedIn d)) (h : s.Anchored)
    (stages : List Stage) :
    run capture (s.seatedIn d) stages = (run capture s stages).seatedIn d := by
  unfold run
  rcases stages.getLast? with _ | last
  · rfl
  · have hopened := h.of_upkeep (upkeep_openRedirections s last.redirections)
    dsimp only
    rw [openRedirections_seatedIn d h]
    generalize openRedirections s last.redirections = opened at hopened ⊢
    obtain ⟨f | wiring, s'⟩ := opened
    · cases f <;> rfl
    · have hinit : Run.init (s'.seatedIn d) stages wiring =
          (Run.init s' stages wiring).changed (.seatedIn d) :=
        Run.init_changed (v := .seatedIn d) s' stages wiring
      have hstart : (Run.init s' stages wiring).session.Anchored := hopened.of_eq rfl rfl rfl
      dsimp only
      rw [runWired_eq_runFrom, runWired_eq_runFrom, hinit,
        runFrom_changed (v := .seatedIn d) hc stages.zipIdx hstart]
      rfl

end Pipeline

namespace Stage

theorem parse_seatedIn (h : s.Anchored) (line : String) :
    parse (s.seatedIn d) line = parse s line :=
  parse_of_targetOf (fun name => by simp only [targetOf, Builtin.resolveIn_seatedIn h]) line

end Stage

namespace Session

/-- A path leads from everywhere to the same executable file, and to load a program by the path is
to load that file. -/
structure Locates (s : Session) (path : Path) : Prop where
  absolute : path.isAbsolute = true
  candidates : Pipeline.candidates s.environment path = [path.text]
  file : ∃ place content, s.world.files.stat s.world.directory path =
    .ok (place, .file content true) ∧
    ∀ base, s.world.files.statText base path.text = .ok (place, .file content true)

theorem locates_of_isExecutable {path : Path} (habsolute : path.isAbsolute = true)
    (hsound : path.Sound) (hexecutable : s.world.isExecutable path = true) : s.Locates path := by
  refine ⟨habsolute, ?_, ?_⟩
  · obtain ⟨slashes, -, htext⟩ := Path.toList_text habsolute
    simp [Pipeline.candidates, htext]
  · rcases hstat : s.world.files.stat s.world.directory path with e | ⟨place, node⟩
    · simp only [World.isExecutable, World.test, FileSystem.test, hstat] at hexecutable
      grind
    · have hfile : FileSystem.isExecutableNode node = true := by
        simp only [World.isExecutable, World.test, FileSystem.test, hstat] at hexecutable
        grind
      cases node with
      | file content executable =>
        obtain rfl : executable = true := hfile
        refine ⟨place, content, rfl, fun base => ?_⟩
        rw [FileSystem.statText_text habsolute hsound base s.world.directory, hstat]
      | _ => cases hfile

theorem locates_of_resolveIn (h : s.Anchored) {name : String} {path : Path}
    (hname : Builtin.resolveIn s name = .external path) : s.Locates path := by
  unfold Builtin.resolveIn Lookup.resolve at hname
  split at hname
  · cases hname
  · split at hname
    · dsimp only at hname
      split at hname <;> cases hname
      next hexecutable =>
      exact locates_of_isExecutable (Path.isAbsolute_join h.cwd _)
        (h.names.join (Path.sound_ofText _)) hexecutable
    · split at hname <;> cases hname
      next hfound =>
      obtain ⟨directory, hdirectory, rfl⟩ := List.mem_map.mp (List.mem_of_find?_eq_some hfound)
      exact locates_of_isExecutable (Path.isAbsolute_join (h.searchPath directory hdirectory) _)
        ((Path.sound_ofText _).join (Path.sound_ofText _)) (List.find?_some hfound)

/-- The programs of a line are named by paths that lead to one file from everywhere. -/
theorem locates_of_parse (h : s.Anchored) {line : String} {stages : List Stage}
    (hparse : Stage.parse s line = .ok stages) {stage : Stage} (hstage : stage ∈ stages)
    {path : Path} (htarget : stage.target = .program (some path)) : s.Locates path := by
  rw [Stage.target_of_parse hparse stage hstage] at htarget
  unfold Stage.targetOf at htarget
  split at htarget
  · cases htarget
  · have hpath : (Builtin.resolveIn s stage.command).path? = some path :=
      Stage.Target.program.inj htarget
    cases hresolve : Builtin.resolveIn s stage.command with
    | external p =>
      rw [hresolve] at hpath
      cases hpath
      exact locates_of_resolveIn h hresolve
    | _ => simp [hresolve, Resolution.path?] at hpath

end Session

namespace Shell

/-- Whether a session is anchored goes by where it is. -/
theorem whereabouts_anchored : Session.Whereabouts Anchored where
  of_eq _ _ henvironment hsettings hcwd _ h := h.of_eq henvironment hsettings hcwd
  cd _ args h := Builtin.anchored_runCd h args

/-- A line that is captured does the same wherever the process has its working directory. -/
theorem capture_seatedIn (depth : Nat) (line : Json) (h : s.Anchored) :
    capture depth line (s.seatedIn d) =
    ((capture depth line s).1, (capture depth line s).2.seatedIn d) := by
  induction depth generalizing line s with
  | zero => rfl
  | succ depth ih =>
    cases line with
    | str units =>
      unfold capture
      dsimp only
      rw [Stage.parse_seatedIn d h]
      rcases Stage.parse s units.text with e | _ | ⟨stage, rest⟩
      · rfl
      · rfl
      · have hunseen :=
          Builtin.unseen_seatedIn d (whereabouts_anchored.enduring depth) fun line s h => ih line h
        have hblank : ({ s with screen := [], direct := false } : Session).Anchored :=
          h.of_eq rfl rfl rfl
        have hran := Pipeline.run_seatedIn d hunseen hblank (stage :: rest)
        dsimp only
        rw [captureStages_eq, captureStages_eq]
        change captured (s.seatedIn d) (Pipeline.run (capture depth)
          (Session.seatedIn d { s with screen := [], direct := false }) (stage :: rest)) = _
        rw [hran]
        rfl
    | _ => rfl

theorem unseen_seatedIn (depth : Nat) :
    Builtin.Unseen (capture depth) Anchored (Session.seatedIn d) :=
  Builtin.unseen_seatedIn d (whereabouts_anchored.enduring depth) fun line _ h =>
    capture_seatedIn d depth line h

theorem runLine_seatedIn (h : s.Anchored) (line : String) :
    runLine (s.seatedIn d) line = ((runLine s line).1, (runLine s line).2.seatedIn d) := by
  unfold runLine
  rw [Stage.parse_seatedIn d h]
  rcases Stage.parse s line with e | _ | ⟨stage, rest⟩
  · rfl
  · rfl
  · have hran := Pipeline.run_seatedIn d (unseen_seatedIn d maxDepth) h (stage :: rest)
    dsimp only [runStages]
    rw [hran]
    rfl

/-- A line does the same wherever the process has its working directory. -/
theorem execute_seatedIn (h : s.Anchored) (line : String) :
    execute (s.seatedIn d) line = ((execute s line).1, (execute s line).2.seatedIn d) := by
  by_cases hblank : Text.strip line = ""
  · simp only [execute, if_pos hblank]
    rfl
  · have hrecorded : (recorded s (Text.strip line)).Anchored := h.of_eq rfl rfl rfl
    have hran := runLine_seatedIn d hrecorded (Text.strip line)
    rw [execute_eq_ite _ hblank, execute_eq_ite _ hblank]
    split
    · rfl
    · change settle (runLine ((recorded s (Text.strip line)).seatedIn d) (Text.strip line)) = _
      rw [hran]
      rcases runLine (recorded s (Text.strip line)) (Text.strip line)
          with ⟨(_ | _ | _) | _, _⟩ <;> rfl

theorem seatedIn_executeAll (h : s.Anchored) (lines : List String) :
    executeAll (s.seatedIn d) lines = (executeAll s lines).seatedIn d := by
  induction lines generalizing s with
  | nil => rfl
  | cons line rest ih =>
    have hline : (execute (s.seatedIn d) line).2 = (execute s line).2.seatedIn d := by
      rw [execute_seatedIn d h]
    rw [executeAll_cons, executeAll_cons, hline]
    exact ih (whereabouts_anchored.execute line h)

/-- Nothing that is done in an anchored session depends on the working directory of its process:
neither what is loaded at the start nor, whatever lines have been executed, how the next one is
read, what end it comes to and what it leaves behind, with all the files and all that has been
shown. A path that a user names starts at the root, and so does the path of a program; that leads to
the file which is loaded. -/
theorem executeAll_seatedIn (h : s.Anchored) (lines : List String) :
    let s' := executeAll s lines
    (s.seatedIn d).loadHistory = (s.loadHistory.1, s.loadHistory.2.seatedIn d) ∧
      executeAll (s.seatedIn d) lines = s'.seatedIn d ∧
      (∀ line, execute (s'.seatedIn d) line =
        ((execute s' line).1, (execute s' line).2.seatedIn d) ∧
        Stage.parse (s'.seatedIn d) line = Stage.parse s' line) ∧
      (∀ path, (s'.resolvePath path).isAbsolute = true) ∧
      ∀ line stages, Stage.parse s' line = .ok stages → ∀ stage ∈ stages, ∀ path,
        stage.target = .program (some path) → s'.Locates path := by
  intro s'
  have hreached : s'.Anchored := whereabouts_anchored.executeAll lines h
  refine ⟨Session.loadHistory_seatedIn h d, seatedIn_executeAll d h lines, fun line => ?_,
    hreached.resolvePath, ?_⟩
  · exact ⟨execute_seatedIn d hreached line, Stage.parse_seatedIn d hreached line⟩
  · intro line stages hparse stage hstage path
    exact Session.locates_of_parse hreached hparse hstage

/-- A session at the root that keeps its history next to itself and finds the program `/bin/ls`. -/
def equipped : Session where
  environment := ⟨[("PATH", "/bin"), ("HISTFILE", "h")]⟩
  cwd := Path.ofParts []
  world := Completion.equipped
  machine := ⟨fun _ _ _ => .error .notFound⟩

theorem parse_equipped : Stage.parse equipped "ls" =
    .ok [{ command := "ls", args := [], target := .program (some (Path.ofParts ["bin", "ls"]))
           text := "ls" }] := by
  have hresolve : Builtin.resolveIn equipped "ls" = .external (Path.ofParts ["bin", "ls"]) := by
    have hsearch : equipped.searchPath = ["/bin"] := by decide
    have hcandidate : Lookup.candidate "/bin" "ls" = Path.ofParts ["bin", "ls"] := by decide
    rw [Builtin.resolveIn, hsearch,
      Lookup.resolve_eq_external_iff (by decide) (by decide), ← hcandidate]
    simp only [Lookup.inDirectories, List.map_cons, List.map_nil]
    exact List.find?_cons_of_pos Completion.isExecutable_equipped.2
  have hwords : Redirection.extract (Word.tokenize "ls") = .ok ([⟨"ls", false⟩], {}) := by decide
  have htarget : Stage.targetOf equipped "ls" = .program (some (Path.ofParts ["bin", "ls"])) := by
    have hname : Builtin.ofName? "ls" = none := by decide
    simp [Stage.targetOf, hresolve, hname, Resolution.path?]
  exact Stage.parse_single (by decide) (by decide) hwords htarget

/-- The history file is named from the working directory, wherever the process has its own, and the
program that is found is the one that would be started. -/
theorem executeAll_seatedIn_equipped :
    equipped.Anchored ∧ equipped.historyFile = some (Path.ofParts ["h"]) ∧
      executeAll (equipped.seatedIn ["bin"])
        ["ls", "exit"] = (executeAll equipped ["ls", "exit"]).seatedIn ["bin"] ∧
      equipped.Locates (Path.ofParts ["bin", "ls"]) := by
  have hanchored : equipped.Anchored := {
    cwd := rfl
    names := by simp [Path.Sound, equipped, Path.ofParts]
    searchPath := by decide
    home := by
      have hnone : equipped.home = none := by decide
      simp [hnone]
    settings := by simp [equipped] }
  obtain ⟨-, hlines, -⟩ := executeAll_seatedIn ["bin"] hanchored ["ls", "exit"]
  obtain ⟨-, -, -, -, hlocates⟩ := executeAll_seatedIn ["bin"] hanchored []
  exact ⟨hanchored, by decide, hlines, hlocates "ls" _ parse_equipped _ List.mem_cons_self _ rfl⟩

end Shell

end CommandShell
