import CommandShell.Proofs.Reading
import CommandShell.Proofs.Scope.Standing
import CommandShell.Proofs.Survival

/-!
# The file that the history is kept in

The history file is looked up each time that it is used: its name is taken from the variables, which
no line changes, and seen from the working directory, which lines may change. So a name that starts
at the root or in the home directory leads to the same file throughout a session, and a relative one
leads to another file once the working directory is another one.

## Main statements

- `Session.usesFile_of_storable`: what is done with the history file.
- `Shell.historyFile_executeAll`: the history file after some lines.
- `Shell.cwd_execute_cd`: where a line leads that is a lone `cd`.
-/

namespace CommandShell

/-- Paths that are seen from two places are the same if they start at the root or the places are the
same. -/
theorem Path.join_eq_join_iff (p p' q : Path) : p.join q = p'.join q ↔ q.isAbsolute = true ∨
    p = p' := by
  unfold join
  split
  · next h => simp [h]
  · next h =>
    obtain ⟨anchor, parts⟩ := p
    obtain ⟨anchor', parts'⟩ := p'
    simp [h]

/-- Where `cd` leads goes by the files, the variables and the working directory. -/
theorem Builtin.cwd_runCd_congr {s s' : Session} (hw : s'.world = s.world)
    (he : s'.environment = s.environment) (hc : s'.cwd = s.cwd) (args : List String) :
    (runCd s' args).session.cwd = (runCd s args).session.cwd := by
  have hhome : s'.home = s.home := by rw [Session.home, Session.home, he]
  have hpath (path : String) : s'.resolvePath path = s.resolvePath path := by
    simp only [Session.resolvePath, Session.expandHome, hhome, hc]
  have henter (target : String) (path : Path) :
      (enter s' target path).session.cwd = (enter s target path).session.cwd := by
    unfold enter
    rw [hw]
    rcases s.world.exists? path with f | _ | _
    · exact hc
    · exact hc
    rcases s.world.isDir path with f | _ | _
    · exact hc
    · exact hc
    rcases s.world.resolve path with f | real
    · exact hc
    · rfl
  unfold runCd
  extract_lets target
  rw [hhome, hpath]
  split
  · split
    · exact hc
    · exact henter ..
  · exact henter ..

/-- Without bytes there are no entries. -/
@[simp] theorem History.entriesOf_nil : entriesOf [] = [] := by decide

namespace Session

variable {s s' : Session} {text : String} {file : Path} {place : Place} {node : Option Node}

/-- The history file by the variables of another session: only the working directory is its own. -/
theorem historyFile_of_environment (he : s'.environment = s.environment)
    (hset : s.environment.nonempty? "HISTFILE" = some text) :
    s'.historyFile = some (s'.cwd.join (Path.ofText (s.expandHome text))) := by
  simp [historyFile, resolvePath, expandHome, home, he, hset]

/-- Loading the history changes neither the variables nor the working directory. -/
theorem loadHistory_fixed (s : Session) :
    s.loadHistory.2.environment = s.environment ∧ s.loadHistory.2.cwd = s.cwd := by
  have hnote (t : Session) (level : Log.Level) (source message : String) (pid : Option Nat)
      (he : t.environment = s.environment) (hc : t.cwd = s.cwd) :
      (t.note level source message pid).environment = s.environment ∧
        (t.note level source message pid).cwd = s.cwd := by
    have hstanding := (Upkeep.note t level source message pid).standing
    exact ⟨(congrArg Standing.environment hstanding).trans he, (cwd_of_standing hstanding).trans hc⟩
  unfold loadHistory
  split
  · exact ⟨rfl, rfl⟩
  · split
    · exact hnote _ _ _ _ _ rfl rfl
    · exact hnote _ _ _ _ _ rfl rfl
    · exact ⟨rfl, rfl⟩

/-- What the history gains at the start: the entries that the file holds. -/
theorem entries_loadHistory (hfile : s.historyFile = some file) :
    s.loadHistory.2.history.entries = s.history.entries ++
      History.entriesOf (s.world.bytesAt file) := by
  unfold loadHistory
  simp only [hfile, History.load, History.read, World.bytesAt]
  rcases s.world.read file with f | content
  · cases f <;> simp [Except.map, (Rests.note _ _ _ _ _).history]
  · simp [Except.map, (Rests.note _ _ _ _ _).history]

/-- All that is done with the history file is done with one file: saving the history, and storing
it, adding to the file and reading from it where no other file is named. -/
structure UsesFile (s : Session) (file : Path) : Prop where
  flush : s.flushHistory.2.world.bytesAt file = Utf8.encode (Text.joinLines s.history.entries)
  write : (Builtin.runHistory s ["-w"]).session.world.bytesAt file =
    Utf8.encode (Text.joinLines s.history.entries)
  append : (Builtin.runHistory s ["-a"]).session.world.bytesAt file =
    s.world.bytesAt file ++ Utf8.encode (Text.joinLines s.history.unstored)
  read : (Builtin.runHistory s ["-r"]).session.history.entries =
    s.history.entries ++ History.entriesOf (s.world.bytesAt file)

/-- Where no file is named, the history file is read, stored or added to. -/
theorem session_runHistory (hfile : s.historyFile = some file) {first : String}
    (flag : Builtin.HistoryFlag) (hflag : Builtin.historyFlag? first = some flag) :
    (Builtin.runHistory s [first]).session = (Builtin.transfer s flag file).1 := by
  have hclear : first ≠ "-c" := by
    rintro rfl
    cases hflag
  unfold Builtin.runHistory
  split
  · contradiction
  · simp_all
  · next heq =>
    cases heq
    simp only [hflag, List.head?_nil, Option.map_none, Option.none_or, hfile]
    rcases Builtin.transfer s flag file with ⟨s', f | _⟩
    · cases f <;> rfl
    · rfl

theorem usesFile_of_storable (hfile : s.historyFile = some file)
    (hs : s.world.Storable file place node) : s.UsesFile file := by
  obtain ⟨stored, content, executable, hstored, -, hall, -⟩ :=
    hs.writeText .truncate (Text.joinLines s.history.entries)
  obtain ⟨added, content', executable', hadded, -, hnew, -⟩ :=
    hs.writeText .append (Text.joinLines s.history.unstored)
  constructor
  · simpa [flushHistory, hfile, History.write, hstored] using hall
  · rw [session_runHistory hfile .write rfl]
    simpa [Builtin.transfer, History.write, hstored] using hall
  · rw [session_runHistory hfile .append rfl]
    by_cases hnone : s.history.unstored = []
    · simp [Builtin.transfer, History.appendTo, hnone, Text.joinLines, Utf8.encode]
    · simpa [Builtin.transfer, History.appendTo, hnone, hadded] using hnew
  · rw [session_runHistory hfile .read rfl]
    unfold World.bytesAt
    simp only [Builtin.transfer, History.read]
    rcases s.world.read file with f | content <;> simp [Except.map]

end Session

namespace Shell

/-- The session after some lines, whatever came of them. -/
def executeAll (s : Session) (lines : List String) : Session :=
  lines.foldl (fun s line => (execute s line).2) s

@[simp] theorem executeAll_nil (s : Session) : executeAll s [] = s := rfl

@[simp] theorem executeAll_cons (s : Session) (line : String) (rest : List String) :
    executeAll s (line :: rest) = executeAll (execute s line).2 rest := by
  rw [executeAll, List.foldl_cons, ← executeAll]

/-- No lines change the variables. -/
theorem environment_executeAll (s : Session) (lines : List String) :
    (executeAll s lines).environment = s.environment := by
  induction lines generalizing s with
  | nil => rfl
  | cons line rest ih =>
    rw [executeAll_cons, ih]
    exact (draws_execute s line).1

/-- The history file after some lines of a session that has loaded its history: it is named by the
variable as at the start and seen from the working directory. So it is the file that was loaded just
if the name leads on from the root, or the working directory is again what it was; then all that is
done with the history file is done with that one. -/
theorem historyFile_executeAll (s : Session) {text : String}
    (hset : s.environment.nonempty? "HISTFILE" = some text) (lines : List String) :
    let s' := executeAll s.loadHistory.2 lines
    let named := Path.ofText (s.expandHome text)
    s'.historyFile = some (s'.cwd.join named) ∧
      (s'.historyFile = s.historyFile ↔ named.isAbsolute = true ∨ s'.cwd = s.cwd) ∧
      ∀ file, s.historyFile = some file →
        s.loadHistory.2.history.entries = s.history.entries ++
          History.entriesOf (s.world.bytesAt file) ∧
        (named.isAbsolute = true ∨ s'.cwd = s.cwd → ∀ place node,
          s'.world.Storable file place node → s'.UsesFile file) := by
  intro s' named
  have henvironment : s'.environment = s.environment :=
    (environment_executeAll _ lines).trans s.loadHistory_fixed.1
  have hnow : s'.historyFile = some (s'.cwd.join named) :=
    Session.historyFile_of_environment henvironment hset
  have hstart : s.historyFile = some (s.cwd.join named) :=
    Session.historyFile_of_environment rfl hset
  have hsame : s'.historyFile = s.historyFile ↔ named.isAbsolute = true ∨ s'.cwd = s.cwd := by
    rw [hnow, hstart, Option.some.injEq, Path.join_eq_join_iff]
  refine ⟨hnow, hsame, fun file hfile => ⟨Session.entries_loadHistory hfile, ?_⟩⟩
  intro hstays place node hstorable
  exact Session.usesFile_of_storable ((hsame.mpr hstays).trans hfile) hstorable

/-- Where a line leads that is a lone `cd`. -/
theorem cwd_execute_cd {s : Session} {line : String} {stage : Stage} (hne : Text.strip line ≠ "")
    (hhelp : asksForHelp (Text.strip line) = false)
    (hparse : Stage.parse { s with history := s.history.append (Text.strip line) }
      (Text.strip line) = .ok [stage])
    (ht : stage.target = .builtin .cd) (hr : stage.redirections = {}) :
    (execute s line).2.cwd = (Builtin.runCd s stage.args).session.cwd := by
  unfold execute
  extract_lets stripped recorded
  have hopen : Pipeline.openRedirections recorded stage.redirections =
      (.ok { out := .screen .out, outlets := .ofSession recorded }, recorded) := by rw [hr]; rfl
  have hran := Pipeline.standing_run_builtin (capture maxDepth) ht hopen
  have hcwd := congrArg Standing.cwd (hran.trans (Pipeline.Run.standing_take ..))
  have hlogged :=
    (Session.Upkeep.note recorded .debug "pipeline" ("builtin " ++ stage.command) none).standing
  have hcd := Builtin.cwd_runCd_congr (s := s) (recorded.world_note ..)
    (congrArg Standing.environment hlogged) (congrArg Standing.cwd hlogged) stage.args
  change (runStages recorded [stage]).session.cwd = _ at hcwd
  rw [if_neg hne, if_neg (by simp [stripped, hhelp])]
  simp only [runLine, recorded, stripped, hparse]
  generalize runStages _ [stage] = o at hcwd ⊢
  obtain ⟨_, _, _, _, (code | _ | f) | status⟩ := o <;> exact hcwd.trans hcd

/-- A session at the root that may go to `/d`; its home directory is `/home`. -/
def wandering (histfile : String) : Session where
  environment := ⟨[("HISTFILE", histfile), ("HOME", "/home")]⟩
  cwd := Path.ofParts []
  world := { files := { nodes := [(["home"], .dir), (["d"], .dir)] } }
  machine := ⟨fun _ _ _ => .error .notFound⟩

theorem parse_cd (s : Session) : Stage.parse s "cd d" =
      .ok [{ command := "cd", args := ["d"], target := .builtin .cd, text := "cd d" }] := by
  have hwords : Redirection.extract (Word.tokenize "cd d") =
      .ok ([⟨"cd", false⟩, ⟨"d", false⟩], {}) := by decide
  exact Stage.parse_builtin s (by decide) (by decide) hwords rfl

theorem loadHistory_wandering (histfile : String) : ∃ history entries,
    (wandering histfile).loadHistory.2 =
    { wandering histfile with history, log := { entries } } := by
  unfold Session.loadHistory
  split
  · exact ⟨_, _, rfl⟩
  · split <;> exact ⟨_, _, rfl⟩

theorem cd_wandering (histfile : String) :
    (Builtin.runCd (wandering histfile) ["d"]).session.cwd = Path.ofParts ["d"] := by
  have hname : ¬ FileSystem.maxName < (Utf8.encode "d").length := by decide
  have hplace (purpose : FileSystem.Purpose) :
      (wandering histfile).world.files.locate purpose [] (Path.ofParts ["d"]) =
        .ok (["d"], some .dir) := by
    rw [FileSystem.locate, if_neg (by decide)]
    simp [wandering, hname, Path.ofParts, Path.isAbsolute, FileSystem.walk, FileSystem.get?]
  have hstat : (wandering histfile).world.files.stat [] (Path.ofParts ["d"]) =
      .ok (["d"], .dir) := by
    rw [FileSystem.stat, hplace, FileSystem.present]
  have htarget : String.intercalate " " ["d"] = "d" := by decide
  have hpath : (wandering histfile).resolvePath "d" = Path.ofParts ["d"] := by
    have hexpand : (wandering histfile).expandHome "d" = "d" := by
      unfold Session.expandHome
      split <;> simp_all
    rw [Session.resolvePath, hexpand]
    change (Path.ofParts []).join (Path.ofText "d") = _
    decide
  have hnull : Path.hasNull (Path.ofParts ["d"]).text = false := by decide
  have hdirectory : (wandering histfile).world.directory = [] := rfl
  have hreal : (wandering histfile).world.files.realPlace [] (Path.ofParts ["d"]) = ["d"] := by
    have hlook := hplace .look
    simp only [Path.ofParts] at hlook
    simp [FileSystem.realPlace, FileSystem.realPath, FileSystem.linkAt?, Path.isAbsolute,
      Path.child, Path.ofParts, Path.placeFrom, Path.follow, hlook]
  simp only [Builtin.runCd, htarget, hpath, Builtin.enter, World.exists?, World.isDir,
    World.resolve, World.test, FileSystem.test, hnull, hdirectory, hstat, hreal]
  rfl

theorem cwd_wandering (histfile : String) :
    (executeAll (wandering histfile).loadHistory.2 ["cd d"]).cwd = Path.ofParts ["d"] := by
  obtain ⟨history, entries, hload⟩ := loadHistory_wandering histfile
  have hline : Text.strip "cd d" = "cd d" := by decide
  rw [hload, executeAll_cons, executeAll_nil,
    cwd_execute_cd (by decide) (by decide) (hline ▸ parse_cd _) rfl rfl]
  dsimp only
  rw [← cd_wandering histfile]
  apply Builtin.cwd_runCd_congr <;> rfl

theorem storable_wandering_home :
    (wandering "~/h").world.Storable (Path.ofText "/home/h") ["home", "h"] none := by
  have hhome : ¬ FileSystem.maxName < (Utf8.encode "home").length := by decide
  have hname : ¬ FileSystem.maxName < (Utf8.encode "h").length := by decide
  have hpath : Path.ofText "/home/h" = Path.ofParts ["home", "h"] := by decide
  refine ⟨⟨by decide, ?_, trivial⟩, rfl⟩
  rw [hpath, FileSystem.locate, if_neg (by decide)]
  simp [wandering, hhome, hname, Path.ofParts, Path.isAbsolute, FileSystem.walk, FileSystem.get?]

/-- The history is kept in the home directory wherever the session goes. -/
theorem historyFile_executeAll_home :
    let s := wandering "~/h"
    let after := executeAll s.loadHistory.2
    (after ["cd d"]).historyFile = s.historyFile ∧ (after ["cd d"]).cwd ≠ s.cwd ∧
      (after []).UsesFile (Path.ofText "/home/h") := by
  intro s after
  have hset : s.environment.nonempty? "HISTFILE" = some "~/h" := by decide
  have habsolute : (Path.ofText (s.expandHome "~/h")).isAbsolute = true := by decide
  obtain ⟨-, hsame, -⟩ := historyFile_executeAll s hset ["cd d"]
  obtain ⟨-, -, huses⟩ := historyFile_executeAll s hset []
  refine ⟨hsame.mpr (.inl habsolute), ?_, ?_⟩
  · rw [cwd_wandering]
    decide
  · refine (huses _ (by decide)).2 (.inl habsolute) ["home", "h"] none ?_
    obtain ⟨history, entries, hload⟩ := loadHistory_wandering "~/h"
    rw [executeAll_nil, hload]
    exact storable_wandering_home

/-- A file that is named from the working directory is another one after a `cd`. -/
theorem historyFile_moves :
    (wandering "h").historyFile = some (Path.ofParts ["h"]) ∧
      (executeAll (wandering "h").loadHistory.2 ["cd d"]).historyFile =
        some (Path.ofParts ["d", "h"]) := by
  have hset : (wandering "h").environment.nonempty? "HISTFILE" = some "h" := by decide
  refine ⟨by decide, ?_⟩
  rw [Session.historyFile_of_environment
    ((environment_executeAll _ _).trans (Session.loadHistory_fixed _).1) hset, cwd_wandering]
  decide

end Shell

end CommandShell
