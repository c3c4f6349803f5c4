import CommandShell.Proofs.Builtin.Footprint
import CommandShell.Proofs.Builtin.Mapping
import CommandShell.Proofs.FileSystem.Rooted
import CommandShell.Stage

/-!
# Builtins of an anchored session

A session has a working directory of its own, and the process around it has another one. Nobody
looks at the one of the process as long as all paths that are taken as they are start at the root:
those of the search path, of the home directory and of the settings. A path that a user names is
anchored at the working directory of the session.

## Main statements

- `Session.Anchored`: a session whose paths start at the root.
- `Builtin.anchored_runCd`: `cd` leaves a session anchored.
- `Builtin.unseen_seatedIn`: builtins do not see the working directory of the process.
-/

namespace CommandShell

theorem Kernel.openText_base {text : String} (h : FileSystem.isFromRoot text = true) (k : Kernel)
    (base base' : Place) (access : Access) :
      k.openText base text access = k.openText base' text access := by
  simp only [openText, FileSystem.locateText_base h _ base base']

namespace World

/-- A world whose process has another working directory. -/
def seatedIn (d : Place) (w : World) : World := { w with directory := d }

variable {p : Path} (h : p.isAbsolute = true) (d : Place) (w : World)
include h

theorem test_seatedIn (q : Node → Bool) : (w.seatedIn d).test p q = w.test p q := by
  simp only [test, seatedIn, FileSystem.test_base h d w.directory]

theorem exists?_seatedIn : (w.seatedIn d).exists? p = w.exists? p := test_seatedIn h d w _

theorem isDir_seatedIn : (w.seatedIn d).isDir p = w.isDir p := test_seatedIn h d w _

theorem isExecutable_seatedIn : (w.seatedIn d).isExecutable p = w.isExecutable p := by
  simp only [isExecutable, test_seatedIn h]

theorem resolve_seatedIn : (w.seatedIn d).resolve p = w.resolve p := by
  have hreal (place : Place) :
      w.files.stat d (.ofParts place) = w.files.stat w.directory (.ofParts place) :=
    FileSystem.stat_base (Path.isAbsolute_ofParts place) d w.directory
  simp only [resolve, seatedIn, FileSystem.realPlace_base h d w.directory, hreal]

theorem read_seatedIn : (w.seatedIn d).read p = w.read p := by
  simp only [read, unreadable?, seatedIn, FileSystem.read_base h d w.directory,
    FileSystem.stat_base h d w.directory]

theorem writeText_seatedIn (mode : OpenMode) (text : String) :
    (w.seatedIn d).writeText p mode text =
    ((w.writeText p mode text).1.seatedIn d, (w.writeText p mode text).2) := by
  simp only [writeText, seatedIn, FileSystem.writeFile_base h d w.directory]
  split <;> rfl

theorem openFile_seatedIn (mode : OpenMode) :
    (w.seatedIn d).openFile p mode = (w.openFile p mode).map fun opened =>
    (opened.1, opened.2.seatedIn d) := by
  have hbase :=
    w.toKernel.openText_base (FileSystem.isFromRoot_text h) d w.directory (accessOf mode)
  have hwritable : (w.seatedIn d).unwritable? p = w.unwritable? p := by
    simp only [unwritable?, seatedIn, FileSystem.locate_base h d w.directory]
  simp only [openFile, hwritable]
  simp only [seatedIn, hbase]
  generalize guarded p _ = opened
  rcases opened with f | ⟨handle, k⟩ <;> rfl

end World

theorem Settings.get_seatedIn {p : Path} (h : p.isAbsolute = true) (d : Place) (w : World) :
    get (w.seatedIn d) p = get w p := by
  simp only [get, World.read_seatedIn h]

theorem Settings.set_seatedIn {p : Path} (h : p.isAbsolute = true) (d : Place) (w : World)
    (key : String) (value : CodeUnits) : set (w.seatedIn d) p key value =
    ((set w p key value).1.seatedIn d, (set w p key value).2) := by
  have hparent : p.parent.isAbsolute = true := h
  unfold set
  rw [get_seatedIn h]
  split
  · rfl
  · extract_lets config
    split
    · rfl
    · have hmade : (w.seatedIn d).files.makeDirs (w.seatedIn d).directory
          p.parent.parts.length p.parent =
          w.files.makeDirs w.directory p.parent.parts.length p.parent :=
            FileSystem.makeDirs_base hparent d _ _
      rw [hmade]
      rcases w.files.makeDirs w.directory p.parent.parts.length p.parent with ⟨files, e | _⟩
      · rfl
      · have hseated : ({ w.seatedIn d with files } : World) = World.seatedIn d { w with files } :=
          rfl
        dsimp only
        rw [hseated, World.writeText_seatedIn h]
        rcases World.writeText { w with files } p .truncate (Json.renderMembers config)
            with ⟨w', f | _⟩ <;> rfl

section Histories

variable {p : Path} (h : p.isAbsolute = true) (d : Place) (history : History) (w : World)
include h

theorem History.write_seatedIn : history.write (w.seatedIn d) p =
    ((history.write w p).1, (history.write w p).2.1.seatedIn d, (history.write w p).2.2) := by
  unfold write
  rw [World.writeText_seatedIn h]
  rcases w.writeText p .truncate (Text.joinLines history.entries) with ⟨w', f | _⟩ <;> rfl

theorem History.appendTo_seatedIn : history.appendTo (w.seatedIn d) p =
    ((history.appendTo w p).1, (history.appendTo w p).2.1.seatedIn d,
      (history.appendTo w p).2.2) := by
  unfold appendTo
  split
  · rfl
  · rw [World.writeText_seatedIn h]
    rcases w.writeText p .append (Text.joinLines history.unstored) with ⟨w', f | _⟩ <;> rfl

end Histories

namespace Session

/-- A session of a process that has another working directory. -/
def seatedIn (d : Place) (s : Session) : Session := { s with world := s.world.seatedIn d }

/-- A session whose paths start at the root. Only the working directory may change: the others are
given with the variables. -/
structure Anchored (s : Session) : Prop where
  cwd : s.cwd.isAbsolute = true
  names : s.cwd.Sound
  searchPath : ∀ directory ∈ s.searchPath, (Path.ofText directory).isAbsolute = true
  home : ∀ home, s.home = some home → home.isAbsolute = true
  settings : ∀ file, s.settings = some file → file.isAbsolute = true

section Seats

variable (d : Place) (s : Session)

@[simp] theorem environment_seatedIn : (s.seatedIn d).environment = s.environment := rfl

@[simp] theorem cwd_seatedIn : (s.seatedIn d).cwd = s.cwd := rfl

@[simp] theorem history_seatedIn : (s.seatedIn d).history = s.history := rfl

@[simp] theorem settings_seatedIn : (s.seatedIn d).settings = s.settings := rfl

@[simp] theorem client_seatedIn : (s.seatedIn d).client = s.client := rfl

@[simp] theorem world_seatedIn : (s.seatedIn d).world = s.world.seatedIn d := rfl

@[simp] theorem searchPath_seatedIn : (s.seatedIn d).searchPath = s.searchPath := rfl

@[simp] theorem home_seatedIn : (s.seatedIn d).home = s.home := rfl

@[simp] theorem resolvePath_seatedIn (path : String) :
    (s.seatedIn d).resolvePath path = s.resolvePath path := rfl

@[simp] theorem historyFile_seatedIn : (s.seatedIn d).historyFile = s.historyFile := rfl

theorem onKernel_seatedIn (f : Kernel → Kernel) :
    (s.seatedIn d).onKernel f = (s.onKernel f).seatedIn d := rfl

theorem absorb_seatedIn : (s.seatedIn d).absorb = s.absorb.seatedIn d := by
  have hdirect : (s.seatedIn d).direct = s.direct := rfl
  have hspilled : (s.seatedIn d).world.spilled = s.world.spilled := rfl
  unfold absorb
  rw [hdirect, hspilled]
  split <;> rfl

theorem note_seatedIn (level : Log.Level) (source message : String) (pid : Option Nat) :
    (s.seatedIn d).note level source message pid =
    (s.note level source message pid).seatedIn d := by
  have hlog : (s.seatedIn d).log = s.log := rfl
  unfold note
  rw [hlog]
  generalize s.log.record _ = recorded
  obtain ⟨log, _ | ⟨channel, line⟩⟩ := recorded <;> rfl

end Seats

namespace Anchored

variable {s s' : Session} {d : Place}

theorem resolvePath (h : s.Anchored) (path : String) : (s.resolvePath path).isAbsolute = true :=
  Path.isAbsolute_join h.cwd _

theorem sound_resolvePath (h : s.Anchored) (path : String) : (s.resolvePath path).Sound :=
  h.names.join (Path.sound_ofText _)

theorem historyFile (h : s.Anchored) {file : Path} (hfile : s.historyFile = some file) :
    file.isAbsolute = true := by
  obtain ⟨text, -, rfl⟩ := Option.map_eq_some_iff.mp hfile
  exact h.resolvePath text

/-- A session with the same variables and settings is anchored if its working directory starts at
the root. -/
theorem of_cwd (h : s.Anchored) (henvironment : s'.environment = s.environment)
    (hsettings : s'.settings = s.settings) (hcwd : s'.cwd.isAbsolute = true)
    (hnames : s'.cwd.Sound) : s'.Anchored where
  cwd := hcwd
  names := hnames
  searchPath := by
    intro directory hdirectory
    rw [Session.searchPath, henvironment] at hdirectory
    exact h.searchPath directory hdirectory
  home := by
    intro home hhome
    rw [Session.home, henvironment] at hhome
    exact h.home home hhome
  settings := by
    intro file hfile
    exact h.settings file (hsettings ▸ hfile)

theorem of_eq (h : s.Anchored) (henvironment : s'.environment = s.environment)
    (hsettings : s'.settings = s.settings) (hcwd : s'.cwd = s.cwd) : s'.Anchored :=
  h.of_cwd henvironment hsettings (hcwd ▸ h.cwd) (hcwd ▸ h.names)

theorem of_upkeep (h : s.Anchored) (hkept : s.Upkeep s') : s'.Anchored := by
  obtain ⟨_, _, _, _, rfl⟩ := hkept
  exact h.of_eq rfl rfl rfl

end Anchored

theorem loadHistory_seatedIn {s : Session} (h : s.Anchored) (d : Place) :
    (s.seatedIn d).loadHistory = (s.loadHistory.1, s.loadHistory.2.seatedIn d) := by
  unfold loadHistory
  rw [historyFile_seatedIn]
  split
  · rfl
  · next file hfile =>
    have hread : s.history.load (s.world.seatedIn d) file = s.history.load s.world file := by
      simp only [History.load, History.read, World.read_seatedIn (h.historyFile hfile)]
    rw [history_seatedIn, world_seatedIn, hread]
    rcases s.history.load s.world file with (_ | _) | ⟨history, count⟩
    · exact congrArg (Prod.mk _) (note_seatedIn d s ..)
    all_goals first | rfl | exact congrArg (Prod.mk _) (note_seatedIn d { s with history } ..)

theorem flushHistory_seatedIn {s : Session} (h : s.Anchored) (d : Place) :
    (s.seatedIn d).flushHistory = (s.flushHistory.1, s.flushHistory.2.seatedIn d) := by
  unfold flushHistory
  rw [historyFile_seatedIn]
  split
  · rfl
  · next file hfile =>
    rw [history_seatedIn, world_seatedIn, History.write_seatedIn (h.historyFile hfile)]
    rcases s.history.write s.world file with ⟨history, world, (_ | _) | _⟩
    all_goals first
      | rfl
      | exact congrArg (Prod.mk _) (note_seatedIn d { s with history, world } ..)

end Session

namespace Builtin

variable {s : Session}

section Replies

variable (h : s.Anchored) (d : Place) (args : List String)
include h

theorem runExit_seatedIn :
    runExit (s.seatedIn d) args = (runExit s args).map (Session.seatedIn d) := by
  unfold runExit
  rw [Session.flushHistory_seatedIn h]
  rcases s.flushHistory with ⟨_ | _, _⟩ <;> rfl

omit h in
theorem enter_seatedIn {path : Path} (hpath : path.isAbsolute = true) (target : String) :
    enter (s.seatedIn d) target path = (enter s target path).map (Session.seatedIn d) := by
  unfold enter
  rw [s.world_seatedIn, World.exists?_seatedIn hpath, World.isDir_seatedIn hpath,
    World.resolve_seatedIn hpath]
  rcases s.world.exists? path with f | _ | _
  · rfl
  · rfl
  · rcases s.world.isDir path with f | _ | _
    · rfl
    · rfl
    · rcases s.world.resolve path with f | real <;> rfl

theorem runCd_seatedIn : runCd (s.seatedIn d) args = (runCd s args).map (Session.seatedIn d) := by
  unfold runCd
  extract_lets target
  rw [s.home_seatedIn, s.resolvePath_seatedIn]
  split
  · rcases hhome : s.home with _ | home
    · rfl
    · exact enter_seatedIn d (h.home home hhome) target
  · exact enter_seatedIn d (h.resolvePath target) target

/-- What a name stands for is looked up along paths from the root. -/
theorem resolveIn_seatedIn (name : String) : resolveIn (s.seatedIn d) name = resolveIn s name := by
  have hfind (directories : List String)
      (hdirectories : ∀ directory ∈ directories, directory ∈ s.searchPath) :
      Lookup.inDirectories (s.world.seatedIn d) name directories =
        Lookup.inDirectories s.world name directories := by
    induction directories with
    | nil => rfl
    | cons directory rest ih =>
      have hfirst : ((Path.ofText directory).join (Path.ofText name)).isAbsolute = true :=
        Path.isAbsolute_join (h.searchPath directory (hdirectories directory List.mem_cons_self)) _
      have hrest := ih fun d hd => hdirectories d (List.mem_cons_of_mem _ hd)
      unfold Lookup.inDirectories at hrest ⊢
      rw [List.map_cons, List.find?_cons, List.find?_cons,
        World.isExecutable_seatedIn hfirst, hrest]
  have hslash : (Lookup.anchored (some s.cwd) (Path.ofText name)).isAbsolute = true :=
    Path.isAbsolute_join h.cwd _
  unfold resolveIn Lookup.resolve
  rw [s.world_seatedIn, s.searchPath_seatedIn, s.cwd_seatedIn, hfind _ fun _ hd => hd]
  dsimp only
  rw [World.isExecutable_seatedIn hslash]

theorem runType_seatedIn :
    runType (s.seatedIn d) args = (runType s args).map (Session.seatedIn d) := by
  have hresolve : resolveIn (s.seatedIn d) = resolveIn s := funext (resolveIn_seatedIn h d)
  have hdescribe : describe (s.seatedIn d) = describe s := by
    funext name
    simp only [describe, hresolve]
  unfold runType
  rw [hresolve, hdescribe]
  split <;> rfl

omit h in
theorem transfer_seatedIn {file : Path} (hfile : file.isAbsolute = true) (flag : HistoryFlag) :
    transfer (s.seatedIn d) flag file =
      ((transfer s flag file).1.seatedIn d, (transfer s flag file).2) := by
  unfold transfer
  rw [s.history_seatedIn, s.world_seatedIn]
  cases flag with
  | read =>
    simp only [History.read, World.read_seatedIn hfile]
    rcases s.world.read file with f | content <;> rfl
  | write =>
    rw [History.write_seatedIn hfile]
    rfl
  | append =>
    rw [History.appendTo_seatedIn hfile]
    rfl

theorem runHistory_seatedIn :
    runHistory (s.seatedIn d) args = (runHistory s args).map (Session.seatedIn d) := by
  unfold runHistory
  split
  · rfl
  · rfl
  · next first rest _ =>
    cases historyFlag? first with
    | some flag =>
      dsimp only
      rw [show (s.seatedIn d).resolvePath = s.resolvePath from rfl, s.historyFile_seatedIn]
      cases hfile : (rest.head?.map s.resolvePath).or s.historyFile with
      | none => rfl
      | some file =>
        have habsolute : file.isAbsolute = true := by
          obtain hoperand | ⟨-, hdefault⟩ := Option.or_eq_some_iff.mp hfile
          · obtain ⟨text, -, rfl⟩ := Option.map_eq_some_iff.mp hoperand
            exact h.resolvePath text
          · exact h.historyFile hdefault
        dsimp only
        rw [transfer_seatedIn d habsolute]
        rcases transfer s flag file with ⟨_, (_ | _) | _⟩ <;> rfl
    | none =>
      dsimp only
      cases Text.integer? first <;> rfl

theorem changeSetting_seatedIn {file : Path} (hfile : s.settings = some file) (key value : String) :
    changeSetting (s.seatedIn d) file key value =
      (changeSetting s file key value).map (Session.seatedIn d) := by
  unfold changeSetting
  rw [s.client_seatedIn, s.world_seatedIn, Settings.set_seatedIn (h.settings file hfile)]
  extract_lets unknown
  split
  · rfl
  · rcases Settings.set s.world file key (.ofString value) with ⟨world, (_ | _) | _⟩ <;> rfl

end Replies

theorem runLog_seatedIn (s : Session) (d : Place) (args : List String) :
    runLog (s.seatedIn d) args = (runLog s args).map (Session.seatedIn d) := by
  unfold runLog
  dsimp only
  rw [show (s.seatedIn d).log = s.log from rfl]
  split
  · rcases s.log.filter none none with _ | _ <;> rfl
  · rfl
  · next name _ =>
    cases Log.Level.ofName? name with
    | none => rfl
    | some level =>
      dsimp only
      rcases s.log.filter (some level) none with _ | _ <;> rfl
  · rfl

/-- Where `cd` leads is a place below the root, so it leaves a session anchored. -/
theorem anchored_runCd (h : s.Anchored) (args : List String) : (runCd s args).session.Anchored := by
  obtain ⟨cwd, hs, rfl | ⟨-, path, hpath, -, rfl⟩⟩ := session_runCd s args
  · rw [hs]
    exact h.of_eq rfl rfl rfl
  · have habsolute : path.isAbsolute = true ∧ path.Sound := by
      obtain hhome | ⟨target, rfl⟩ := destination_cases hpath
      · refine ⟨h.home path hhome, ?_⟩
        obtain ⟨text, -, rfl⟩ := Option.map_eq_some_iff.mp hhome
        exact Path.sound_ofText text
      · exact ⟨h.resolvePath target, h.sound_resolvePath target⟩
    rw [hs]
    exact h.of_cwd rfl rfl rfl (FileSystem.isName_of_mem_realPlace (.inl habsolute.1) habsolute.2)

/-- Builtins do not see the working directory of the process, if lines that are run for a chat model
do not. -/
theorem unseen_seatedIn (d : Place) {capture : Capture} (he : Enduring capture Session.Anchored)
    (hc : ∀ line s, s.Anchored →
      capture line (s.seatedIn d) = ((capture line s).1, (capture line s).2.seatedIn d)) :
    Unseen capture Session.Anchored (Session.seatedIn d) where
  enduring := he
  settings _ := rfl
  client _ := rfl
  messages _ := rfl
  ask _ _ := rfl
  capture := hc
  exit s args h := runExit_seatedIn h d args
  echo s args _ := by
    unfold runEcho
    split <;> rfl
  pwd _ _ := rfl
  cd s args h := runCd_seatedIn h d args
  type s args h := runType_seatedIn h d args
  history s args h := runHistory_seatedIn h d args
  log s args _ := runLog_seatedIn s d args
  config s file h hfile := Settings.get_seatedIn (h.settings file hfile) d s.world
  changeSetting s file key value h hfile := changeSetting_seatedIn h d hfile key value

end Builtin

end CommandShell
