import CommandShell.Proofs.Builtin.Reply
import CommandShell.Proofs.Capturing
import CommandShell.Proofs.FileSystem.Resolving
import CommandShell.Proofs.Halting
import CommandShell.Proofs.Persistence

/-!
# What a builtin changes at most

Each builtin has a footprint: the parts of a session, and the files, that it may leave changed. It
holds for all arguments and however the builtin ends. The variables, the chat client, the status of
the last line and the screen are in no footprint as long as the log echoes nothing, not even in that
of `ai`, which has other lines run.

## Main statements

- `Builtin.retains_run`: what no builtin changes.
- `Builtin.footprint_run`: what each of them changes at most.
-/

namespace CommandShell

namespace Session

/-- A session that has kept of another one what no builtin changes, and echoes nothing. -/
structure Retains (s s' : Session) : Prop where
  environment : s'.environment = s.environment
  client : s'.client = s.client
  lastStatus : s'.lastStatus = s.lastStatus
  screen : s'.screen = s.screen
  quiet : s'.log.echo = none

namespace Retains

variable {s s' s'' : Session}

theorem refl (hquiet : s.log.echo = none) : s.Retains s := ⟨rfl, rfl, rfl, rfl, hquiet⟩

theorem trans (h : s.Retains s') (g : s'.Retains s'') : s.Retains s'' :=
  ⟨g.environment.trans h.environment, g.client.trans h.client, g.lastStatus.trans h.lastStatus,
    g.screen.trans h.screen, g.quiet⟩

theorem of_edited (h : s.Edited s') (hquiet : s.log.echo = none) : s.Retains s' :=
  ⟨h.environment, h.client, h.lastStatus, h.quiet hquiet, h.echo.trans hquiet⟩

end Retains

end Session

namespace Shell

/-- A line that is captured shows nothing but echoes. -/
theorem screen_capture (depth : Nat) (line : Json) (s : Session) :
    (capture depth line s).2.screen.written = s.screen.written := by
  cases depth with
  | zero => rfl
  | succ depth =>
    unfold capture
    split
    · split
      · rfl
      · rfl
      · rw [captureStages_eq]
        simp [captured, Screen.written_append]
    · rfl

/-- A line that is captured keeps what no builtin changes. -/
theorem retains_capture (depth : Nat) (line : Json) {s : Session} (hquiet : s.log.echo = none) :
    s.Retains (capture depth line s).2 := by
  have hsteady := (captureWithin_capture Scope.full_any depth line s s.within_any).steady
  -- The session is one that has shown nothing, before a backdrop with what it has shown.
  have hblank := Session.against_of_quiet hquiet s.screen
  have hran := transparent_capture depth { shown := s.screen, lastStatus := s.lastStatus } line
    ({ s with screen := [] } : Session)
  rw [← hblank] at hran
  have hnothing := screen_capture depth line ({ s with screen := [] } : Session)
  refine ⟨hsteady.environment, hsteady.client, ?_, ?_, ?_⟩
  · rw [hran]
    rfl
  · rw [hran]
    simp only [Session.against, hnothing]
    exact List.append_nil _
  · rw [hran]
    rfl

end Shell

namespace FileSystem

/-- Files of which one at most has changed: the one that a path leads to. -/
structure Stored (base : Place) (file : Path) (fs fs' : FileSystem) : Prop where
  place : ∃ place node, fs.locate .create base file = .ok (place, node) ∧ SameBut place fs fs'
  stamps : fs'.stamps = fs.stamps

end FileSystem

theorem FileSystem.Wrote.stored {restraint : Place → Restraint} {base : Place} {p : Path}
    {mode : OpenMode} {bytes : Bytes} {fs fs' : FileSystem} {result : Except Errno Unit}
    {place : Place} {node : Option Node}
    (h : Wrote restraint base p mode bytes fs fs' result place node) : Stored base p fs fs' :=
  ⟨⟨place, node, h.located, h.same⟩, h.stamps⟩

/-- However the writing of a text ends, one file at most has changed, and none if it was refused. -/
theorem World.stored_writeText (w : World) (p : Path) (mode : OpenMode) (text : String) :
    ∃ files, (w.writeText p mode text).1 = { w with files } ∧
      (files = w.files ∨ FileSystem.Stored w.directory p w.files files) := by
  obtain ⟨f, hrefused⟩ | ⟨files, result, place, node, hwritten, -, hwrote⟩ :=
    w.writeText_cases p mode text
  · exact ⟨w.files, by rw [hrefused], .inl rfl⟩
  · exact ⟨files, by rw [hwritten], .inr hwrote.stored⟩

namespace Builtin

open FileSystem (CutShort Direct Grown Stored)

variable (s : Session) (args : List String)

/-- Files of which one at most has been stored. -/
def StoresAt (file : Option Path) (files : FileSystem) : Prop :=
  files = s.world.files ∨ ∃ path, file = some path ∧
    Stored s.world.directory path s.world.files files

/-- The file that an operation on the history goes by: its operand, or else the history file. -/
def operand : Option Path := (args[1]?.map s.resolvePath).or s.historyFile

/-- With these arguments `history` forgets its entries, or reads others. -/
def Rewrites : Prop := args.head? = some "-c" ∨ args.head? = some "-r"

/-- Files in which the history has been stored with these arguments until its file took no more. -/
def Truncates (files : FileSystem) : Prop :=
  ∃ file, operand s args = some file ∧
    (args.head? = some "-w" ∧ CutShort s.world.restraint s.world.directory file .truncate
        (Utf8.encode (Text.joinLines s.history.entries)) s.world.files files ∨
      args.head? = some "-a" ∧ CutShort s.world.restraint s.world.directory file .append
        (Utf8.encode (Text.joinLines s.history.unstored)) s.world.files files)

/-- What a builtin changes at most in a session. -/
def Footprint (r : Reply) : Builtin → Prop
  | .echo | .pwd | .type => r.session = s
  | .cd => ∃ cwd, r.session = { s with cwd } ∧ (cwd = s.cwd ∨ r.ending = .ok 0 ∧
      ∃ path place, destination s args = some path ∧ cwd = Path.ofParts place ∧
        (s.world.files.InSight s.world.directory path → Direct s.world.files place))
  | .history => ∃ history files, r.session = { s with history, world := { s.world with files } } ∧
      (history.entries = s.history.entries ∨ Rewrites args) ∧
      (files = s.world.files ∨ args.head? ∈ [some "-w", some "-a"] ∧
        StoresAt s (operand s args) files) ∧
      (r.ending = .ok 1 → history = s.history ∧ (files = s.world.files ∨ Truncates s args files))
  | .config => ∃ files, r.session = { s with world := { s.world with files } } ∧
      (files = s.world.files ∨ ∃ file key value, s.settings = some file ∧
        args = ["set", key, value] ∧
        key ∈ Settings.settable ∧ ∃ grown, Grown s.world.directory file.parent s.world.files grown ∧
          (files = grown ∨ Stored s.world.directory file grown files))
  | .log => ∃ log, r.session = { s with log } ∧ (log = s.log ∨ args = ["-c"] ∧ log = s.log.clear)
  | .exit => ∃ watermark log files,
      r.session = { s with
        history := { s.history with watermark }, log, world := { s.world with files } } ∧
      StoresAt s s.historyFile files
  | .ai => True

variable {s args}

theorem StoresAt.refl (file : Option Path) : StoresAt s file s.world.files := .inl rfl

/-- A directory that a path leads to, where the working directory of the process is no link. -/
theorem direct_of_isDir {w : World} {path : Path}
    (hseat : w.files.get? w.directory = some .dir → Direct w.files w.directory)
    (hsight : w.files.InSight w.directory path) (hdir : w.isDir path = .ok true) :
    Direct w.files (w.files.realPlace w.directory path) := by
  unfold World.isDir World.test FileSystem.test at hdir
  cases hnull : Path.hasNull path.text
  · rcases hstat : w.files.stat w.directory path with e | ⟨place, node⟩
    · cases hfound : FileSystem.isAbsence e <;> simp [hnull, hstat, hfound] at hdir
    · have hnode : node = .dir := by
        cases node <;> simp [hnull, hstat, FileSystem.isDirNode] at hdir ⊢
      rw [FileSystem.realPlace_of_locate hsight (FileSystem.stat_eq_iff.mp hstat)]
      exact FileSystem.direct_of_stat hseat (hnode ▸ hstat)
  · simp [hnull] at hdir

section Replies

/-- Only the working directory is changed by `cd`, and a new one is the place of a directory. -/
theorem session_enter (s : Session) (target : String) (path : Path) :
    ∃ cwd, (enter s target path).session = { s with cwd } ∧
      (cwd = s.cwd ∨ (enter s target path).ending = .ok 0 ∧ s.world.isDir path = .ok true ∧
        cwd = Path.ofParts (s.world.files.realPlace s.world.directory path)) := by
  unfold enter
  split
  · exact ⟨s.cwd, rfl, .inl rfl⟩
  · exact ⟨s.cwd, rfl, .inl rfl⟩
  · split
    · exact ⟨s.cwd, rfl, .inl rfl⟩
    · exact ⟨s.cwd, rfl, .inl rfl⟩
    · next hdir =>
      split
      · exact ⟨s.cwd, rfl, .inl rfl⟩
      · next real hreal => exact ⟨real, rfl, .inr ⟨rfl, hdir, World.resolve_eq_ok hreal⟩⟩

theorem session_runCd (s : Session) (args : List String) :
    ∃ cwd, (runCd s args).session = { s with cwd } ∧
    (cwd = s.cwd ∨ (runCd s args).ending = .ok 0 ∧ ∃ path, destination s args = some path ∧
      s.world.isDir path = .ok true ∧
        cwd = Path.ofParts (s.world.files.realPlace s.world.directory path)) := by
  cases hpath : destination s args with
  | none => exact ⟨s.cwd, by rw [runCd_of_none hpath, failure], .inl rfl⟩
  | some path =>
    rw [runCd_of_some hpath]
    obtain ⟨cwd, hs, hcwd⟩ := session_enter s (String.intercalate " " args) path
    refine ⟨cwd, hs, hcwd.imp_right ?_⟩
    rintro ⟨hok, hdir, rfl⟩
    exact ⟨hok, path, rfl, hdir, rfl⟩

theorem footprint_cd (hseat : s.world.files.get? s.world.directory = some .dir →
    Direct s.world.files s.world.directory) : Footprint s args (runCd s args) .cd := by
  obtain ⟨cwd, hs, hcwd⟩ := session_runCd s args
  refine ⟨cwd, hs, hcwd.imp_right ?_⟩
  rintro ⟨hok, path, hpath, hdir, rfl⟩
  exact ⟨hok, path, _, hpath, rfl, fun hsight => direct_of_isDir hseat hsight hdir⟩

theorem footprint_type : Footprint s args (runType s args) .type := by
  unfold runType
  split <;> rfl

theorem footprint_echo : Footprint s args (runEcho s args) .echo := by
  unfold runEcho
  split <;> rfl

theorem footprint_log : Footprint s args (runLog s args) .log := by
  unfold runLog
  extract_lets showFrom
  have hshow (least : Option Log.Level) : (showFrom least).session = s := by
    simp only [showFrom]
    split <;> rfl
  split
  · exact ⟨s.log, hshow none, .inl rfl⟩
  · exact ⟨_, rfl, .inr ⟨rfl, rfl⟩⟩
  · split
    · exact ⟨s.log, hshow _, .inl rfl⟩
    · exact ⟨s.log, rfl, .inl rfl⟩
  · exact ⟨s.log, rfl, .inl rfl⟩

/-- What a transfer of the history leaves: one that reads leaves the files, and the others the
entries. -/
theorem session_transfer (s : Session) (flag : HistoryFlag) (file : Path) : ∃ history files,
    (transfer s flag file).1 = { s with history, world := { s.world with files } } ∧
      (flag = .read ∧ files = s.world.files ∨ flag ≠ .read ∧ history.entries = s.history.entries ∧
        (files = s.world.files ∨ Stored s.world.directory file s.world.files files)) := by
  cases flag with
  | read =>
    simp only [transfer]
    split
    · exact ⟨_, s.world.files, rfl, .inl ⟨trivial, rfl⟩⟩
    · exact ⟨s.history, s.world.files, rfl, .inl ⟨trivial, rfl⟩⟩
  | write =>
    obtain ⟨files, hworld, hfiles⟩ :=
      s.world.stored_writeText file .truncate (Text.joinLines s.history.entries)
    refine ⟨_, files, ?_, .inr ⟨by simp, History.entries_write s.history s.world file, hfiles⟩⟩
    simp only [transfer, History.world_write, hworld]
  | append =>
    obtain ⟨files, hworld, hfiles⟩ :=
      s.world.stored_writeText file .append (Text.joinLines s.history.unstored)
    by_cases hnone : s.history.unstored = []
    · exact ⟨s.history, s.world.files, by simp [transfer, History.appendTo, hnone],
        .inr ⟨by simp, rfl, .inl rfl⟩⟩
    · refine ⟨_, files, ?_, .inr ⟨by simp, History.entries_appendTo s.history s.world file, hfiles⟩⟩
      simp only [transfer, History.world_appendTo hnone, hworld]

/-- A transfer that fails leaves the history, and the files unless the writing has been cut
short. -/
theorem transfer_eq_error {s' : Session} {flag : HistoryFlag} {file : Path} {f : Fault}
    (h : transfer s flag file = (s', .error f)) :
    ∃ files, s' = { s with world := { s.world with files } } ∧ (files = s.world.files ∨
      (flag = .write ∧ CutShort s.world.restraint s.world.directory file .truncate
          (Utf8.encode (Text.joinLines s.history.entries)) s.world.files files ∨
        flag = .append ∧ CutShort s.world.restraint s.world.directory file .append
          (Utf8.encode (Text.joinLines s.history.unstored)) s.world.files files)) := by
  cases flag with
  | read =>
    simp only [transfer] at h
    split at h <;> cases h
    exact ⟨s.world.files, rfl, .inl rfl⟩
  | write =>
    rcases hw : s.history.write s.world file with ⟨history, world, g | _⟩ <;>
      simp only [transfer, hw] at h <;> cases h
    obtain ⟨rfl, hstored⟩ := History.write_eq_error hw
    obtain ⟨files, rfl, hfiles⟩ := World.cutShort_of_writeText hstored
    exact ⟨files, rfl, hfiles.imp_right fun hcut => .inl ⟨rfl, hcut⟩⟩
  | append =>
    rcases hw : s.history.appendTo s.world file with ⟨history, world, g | n⟩ <;>
      simp only [transfer, hw] at h <;> cases h
    obtain ⟨rfl, hstored⟩ := History.appendTo_eq_error hw
    obtain ⟨files, rfl, hfiles⟩ := World.cutShort_of_writeText hstored
    exact ⟨files, rfl, hfiles.imp_right fun hcut => .inr ⟨rfl, hcut⟩⟩

theorem historyFlag?_eq_some {first : String} {flag : HistoryFlag}
    (h : historyFlag? first = some flag) :
    first = "-r" ∧ flag = .read ∨ first = "-w" ∧ flag = .write ∨ first = "-a" ∧ flag = .append := by
  unfold historyFlag? at h
  split at h <;> simp_all

theorem runHistory_of_transfer {first : String} {rest : List String} {flag : HistoryFlag}
    {file p : Path} {s' : Session} {e : Errno} (hflag : historyFlag? first = some flag)
    (hfile : (rest.head?.map s.resolvePath).or s.historyFile = some file)
    (h : transfer s flag file = (s', .error (.system e p))) :
    runHistory s (first :: rest) =
      failure s' ("history: " ++ rest.head?.getD file.text ++ ": " ++ e.text) := by
  unfold runHistory
  split
  · contradiction
  · next hclear =>
    obtain ⟨rfl, -⟩ := List.cons.inj hclear
    cases hflag
  · next heq =>
    obtain ⟨rfl, rfl⟩ := List.cons.inj heq
    rw [hflag]
    dsimp only
    rw [hfile]
    dsimp only
    rw [h]

theorem footprint_history : Footprint s args (runHistory s args) .history := by
  have hsame {r : Reply} (h : r.session = s) : Footprint s args r .history :=
    ⟨s.history, s.world.files, h, .inl rfl, .inl rfl, fun _ => ⟨rfl, .inl rfl⟩⟩
  unfold runHistory
  split
  · exact hsame rfl
  · exact ⟨_, s.world.files, rfl, .inr (.inl rfl), .inl rfl, fun h => by simp [success] at h⟩
  · next first rest _ =>
    split
    · next flag hflag =>
      split
      · exact hsame rfl
      · next file hfile =>
        have hoperand : operand s (first :: rest) = some file := by
          rw [operand, ← hfile]
          cases rest <;> rfl
        obtain ⟨history, files, hs, hfiles⟩ := session_transfer s flag file
        -- what has changed is what the flag asks for, however the transfer ends
        have hchanged : (history.entries = s.history.entries ∨ Rewrites (first :: rest)) ∧
            (files = s.world.files ∨ (first :: rest).head? ∈ [some "-w", some "-a"] ∧
              StoresAt s (operand s (first :: rest)) files) := by
          obtain ⟨rfl, rfl⟩ | ⟨hwrites, hentries, hfiles⟩ := hfiles
          · obtain ⟨rfl, -⟩ | ⟨-, hflag⟩ | ⟨-, hflag⟩ := historyFlag?_eq_some hflag
            · exact ⟨.inr (.inr rfl), .inl rfl⟩
            · cases hflag
            · cases hflag
          · refine ⟨.inl hentries, hfiles.imp_right fun hstored =>
              ⟨?_, .inr ⟨file, hoperand, hstored⟩⟩⟩
            obtain ⟨-, rfl⟩ | ⟨rfl, -⟩ | ⟨rfl, -⟩ := historyFlag?_eq_some hflag
            · contradiction
            · simp
            · simp
        split
        · next s' htransfer =>
          rw [htransfer] at hs
          cases hs
          exact ⟨history, files, rfl, hchanged.1, hchanged.2,
            fun hfailed => by simp [success] at hfailed⟩
        · next s' e p htransfer =>
          obtain ⟨files', hs', hcut⟩ := transfer_eq_error htransfer
          rw [htransfer] at hs
          obtain ⟨rfl, rfl⟩ : s.history = history ∧ files' = files := by
            have heq := hs'.symm.trans hs
            exact ⟨congrArg Session.history heq, congrArg (fun s => s.world.files) heq⟩
          refine ⟨s.history, files', hs', hchanged.1, hchanged.2, fun _ =>
            ⟨rfl, hcut.imp_right fun hcut => ?_⟩⟩
          refine ⟨file, hoperand, ?_⟩
          obtain ⟨rfl, rfl⟩ | ⟨rfl, rfl⟩ | ⟨rfl, rfl⟩ := historyFlag?_eq_some hflag
          · simp at hcut
          · simpa using hcut
          · simpa using hcut
        · next s' f _ htransfer =>
          rw [htransfer] at hs
          exact ⟨history, files, hs, hchanged.1, hchanged.2,
            fun hfailed => by simp [faulty] at hfailed⟩
    · split <;> exact hsame rfl

/-- A record changes the log, and the screen if it is echoed. -/
theorem session_note (s : Session) (level : Log.Level) (source message : String)
    (pid : Option Nat) : ∃ log screen, s.note level source message pid = { s with log, screen } ∧
      (s.log.echo = none → screen = s.screen) := by
  have hedited := Session.Edited.note s level source message pid
  unfold Session.note at hedited ⊢
  generalize s.log.record _ = recorded at hedited ⊢
  obtain ⟨log, _ | ⟨channel, line⟩⟩ := recorded
  · exact ⟨log, s.screen, rfl, fun _ => rfl⟩
  · exact ⟨log, _, rfl, hedited.quiet⟩

/-- What `exit` changes: the history is stored, or a record says why it is not. -/
theorem session_runExit (s : Session) (args : List String) : ∃ watermark log screen files,
    (runExit s args).session =
      { s with
        history := { s.history with watermark }, log, screen
        world := { s.world with files } } ∧
      StoresAt s s.historyFile files ∧ (s.log.echo = none → screen = s.screen) := by
  have hflush : ∃ watermark log screen files, s.flushHistory.2 =
      { s with
        history := { s.history with watermark }, log, screen
        world := { s.world with files } } ∧
        StoresAt s s.historyFile files ∧ (s.log.echo = none → screen = s.screen) := by
    unfold Session.flushHistory
    split
    · exact ⟨_, s.log, s.screen, s.world.files, rfl, .refl _, fun _ => rfl⟩
    · next file hfile =>
      obtain ⟨files, hworld, hfiles⟩ :=
        s.world.stored_writeText file .truncate (Text.joinLines s.history.entries)
      have hstores : StoresAt s s.historyFile files := hfiles.imp_right fun hstored =>
        ⟨file, hfile, hstored⟩
      have hentries := History.entries_write s.history s.world file
      rw [← History.world_write] at hworld
      rcases hwrite : s.history.write s.world file with ⟨⟨entries, watermark⟩, world, result⟩
      rw [hwrite] at hworld hentries
      obtain rfl : world = { s.world with files } := hworld
      obtain rfl : entries = s.history.entries := hentries
      rcases result with f | _
      · cases f
        case system e path =>
          obtain ⟨log, screen, hnote, hquiet⟩ := session_note
            { s with history := { s.history with watermark }, world := { s.world with files } }
              .error "history"
            ("cannot save history: " ++ (Fault.system e path).message) none
          exact ⟨watermark, log, screen, files, hnote, hstores, hquiet⟩
        all_goals exact ⟨watermark, s.log, s.screen, files, rfl, hstores, fun _ => rfl⟩
      · exact ⟨watermark, s.log, s.screen, files, rfl, hstores, fun _ => rfl⟩
  unfold runExit
  extract_lets code
  split <;> next heq =>
    rw [heq] at hflush
    exact hflush

theorem footprint_exit (hquiet : s.log.echo = none) : Footprint s args (runExit s args) .exit := by
  obtain ⟨watermark, log, screen, files, hs, hfiles, hscreen⟩ := session_runExit s args
  rw [hscreen hquiet] at hs
  exact ⟨watermark, log, files, hs, hfiles⟩

theorem footprint_changeSetting {file : Path} {key value : String}
    (hfile : s.settings = some file) :
    Footprint s ["set", key, value] (changeSetting s file key value) .config := by
  have hset : ∃ files, (Settings.set s.world file key (.ofString value)).1 =
      { s.world with files } ∧ (files = s.world.files ∨ key ∈ Settings.settable ∧
        ∃ grown, Grown s.world.directory file.parent s.world.files grown ∧
          (files = grown ∨ Stored s.world.directory file grown files)) := by
    unfold Settings.set
    split
    · exact ⟨_, rfl, .inl rfl⟩
    · next hsettable =>
      replace hsettable : key ∈ Settings.settable := by simpa using hsettable
      extract_lets config
      split
      · exact ⟨_, rfl, .inl rfl⟩
      · split <;> next hmade =>
          have hgrown := FileSystem.grown_makeDirs hmade
          first
          | exact ⟨_, rfl, .inr ⟨hsettable, _, hgrown, .inl rfl⟩⟩
          | extract_lets w
            obtain ⟨files, hworld, hstored⟩ :=
              w.stored_writeText file .truncate (Json.renderMembers config)
            refine ⟨files, ?_, .inr ⟨hsettable, _, hgrown, hstored⟩⟩
            split <;> next hwritten =>
              rw [hwritten] at hworld
              exact hworld
  obtain ⟨files, hworld, hfiles⟩ := hset
  unfold changeSetting
  extract_lets unknown
  split
  · exact ⟨s.world.files, rfl, .inl rfl⟩
  · split <;> next heq =>
      rw [heq] at hworld
      refine ⟨files, ?_, hfiles.imp_right ?_⟩
      · rw [← hworld]
        rfl
      · rintro ⟨hsettable, hgrown⟩
        exact ⟨file, key, value, hfile, rfl, hsettable, hgrown⟩

/-- The directory that is changed to may be a link whose path is too long to be looked at. -/
theorem enter_detour {s : Session} (hfiles : s.world.files = FileSystem.deep)
    (hbase : s.world.directory = []) (target : String) :
    enter s target FileSystem.detour = success { s with cwd := .ofParts FileSystem.hidden } := by
  have htest (q : Node → Bool) : s.world.test FileSystem.detour q = .ok (q .dir) := by
    rw [World.test, hfiles, hbase, FileSystem.test, FileSystem.hasNull_detour,
      FileSystem.stat_detour]
    rfl
  have hthere : s.world.exists? FileSystem.detour = .ok true := htest _
  have hdir : s.world.isDir FileSystem.detour = .ok true := htest _
  have hreal : s.world.resolve FileSystem.detour = .ok (.ofParts FileSystem.hidden) := by
    rw [World.resolve, hfiles, hbase, FileSystem.realPlace_detour, FileSystem.stat,
      FileSystem.locate_hidden, FileSystem.present]
  rw [enter, hthere, hdir, hreal]

theorem destination_text {s : Session} {p : Path} (hhome : s.home = none)
    (habsolute : p.isAbsolute = true) (hsound : p.Sound) : destination s [p.text] = some p := by
  obtain ⟨slashes, -, htext⟩ := Path.toList_text habsolute
  have hnamed : ¬ (p.text = "" ∨ p.text = "~") := by
    rintro (h | h) <;> rw [h] at htext <;> simp at htext
  have hresolved : s.resolvePath p.text = p := by
    rw [Session.resolvePath, Session.expandHome, hhome, Path.ofText_text hsound,
      Path.join_of_isAbsolute habsolute]
  rw [destination, String.intercalate_singleton]
  simp [hnamed, hresolved]

end Replies

/-- A builtin that hands a reply to its host has the footprint of the reply. -/
theorem footprint_of_take {capture : Capture} {b : Builtin} {reply : Reply}
    (hf : Footprint s args reply b)
    (h : b.runFor keeper capture args (s, []) = keeper.take reply (s, [])) :
    Footprint s args (b.run capture s args) b := by
  rwa [run_eq_of_take h]

theorem footprint_config (capture : Capture) :
    Footprint s args (Builtin.config.run capture s args) .config := by
  have hkept {reply : Reply} (hsame : reply.session = s) : Footprint s args reply .config :=
    ⟨s.world.files, hsame, .inl rfl⟩
  have hs : keeper.session (s, []) = s := rfl
  have htaken : ∃ reply, runConfig keeper args (s, []) = keeper.take reply (s, []) ∧
      Footprint s args reply .config := by
    unfold runConfig
    simp only [hs]
    split
    · exact ⟨_, rfl, hkept rfl⟩
    · next file _ =>
      let lines := settingLines (Settings.get s.world file)
      exact ⟨success s (emissions .out lines),
        by rw [writeLines_keeper, take_keeper]; rfl, hkept rfl⟩
    · split <;> exact ⟨_, rfl, hkept rfl⟩
    · next file key value hfile => exact ⟨_, rfl, footprint_changeSetting hfile⟩
    · exact ⟨_, rfl, hkept rfl⟩
  obtain ⟨reply, htake, hfootprint⟩ := htaken
  exact footprint_of_take hfootprint htake

/-- What a builtin changes that asks no chat model: the working directory only if it is `cd`, and
the entries of the history only if it is `history` with such arguments. -/
theorem session_run (capture : Capture) {b : Builtin} (hb : b ≠ .ai) (s : Session)
    (args : List String) : ∃ cwd history log screen files, (b.run capture s args).session =
        { s with cwd, history, log, screen, world := { s.world with files } } ∧
      (b ≠ .cd → cwd = s.cwd) ∧
        (history.entries = s.history.entries ∨ b = .history ∧ Rewrites args) := by
  have hsame {r : Reply} (hs : r.session = s) : ∃ cwd history log screen files,
      r.session = { s with cwd, history, log, screen, world := { s.world with files } } ∧
        (b ≠ .cd → cwd = s.cwd) ∧
          (history.entries = s.history.entries ∨ b = .history ∧ Rewrites args) :=
    ⟨s.cwd, s.history, s.log, s.screen, s.world.files, hs, fun _ => rfl, .inl rfl⟩
  cases b with
  | ai => exact absurd rfl hb
  | exit =>
    have hreply : Builtin.exit.run capture s args = runExit s args := run_eq_of_take rfl
    obtain ⟨watermark, log, screen, files, hs, -⟩ := session_runExit s args
    exact ⟨s.cwd, { s.history with watermark }, log, screen, files, hreply ▸ hs, fun _ =>
      rfl, .inl rfl⟩
  | cd =>
    have hreply : Builtin.cd.run capture s args = runCd s args := run_eq_of_take rfl
    obtain ⟨cwd, hs, -⟩ := session_runCd s args
    exact ⟨cwd, s.history, s.log, s.screen, s.world.files, hreply ▸ hs, fun h =>
      absurd rfl h, .inl rfl⟩
  | history =>
    have hfootprint : Footprint s args (Builtin.history.run capture s args) .history :=
      footprint_of_take footprint_history rfl
    obtain ⟨history, files, hs, hentries, -⟩ := hfootprint
    exact ⟨s.cwd, history, s.log, s.screen, files, hs, fun _ => rfl,
      hentries.imp_right fun h => ⟨rfl, h⟩⟩
  | config =>
    have hfootprint : Footprint s args (Builtin.config.run capture s args) .config :=
      footprint_config capture
    obtain ⟨files, hs, -⟩ := hfootprint
    exact ⟨s.cwd, s.history, s.log, s.screen, files, hs, fun _ => rfl, .inl rfl⟩
  | log =>
    have hfootprint : Footprint s args (Builtin.log.run capture s args) .log :=
      footprint_of_take footprint_log rfl
    obtain ⟨log, hs, -⟩ := hfootprint
    exact ⟨s.cwd, s.history, log, s.screen, s.world.files, hs, fun _ => rfl, .inl rfl⟩
  | echo => exact hsame (footprint_of_take (b := .echo) footprint_echo rfl)
  | type => exact hsame (footprint_of_take (b := .type) footprint_type rfl)
  | pwd => exact hsame rfl

/-- A builtin keeps what no builtin changes, whatever lines it has run. -/
theorem retains_run (depth : Nat) (b : Builtin) (hquiet : s.log.echo = none) :
    s.Retains (b.run (Shell.capture depth) s args).session := by
  have hk : keeper.Keeps (Shell.capture depth) fun x => s.Retains x.1 := {
    write := fun _ _ _ hx => hx
    setSession := fun _ _ hs hx => hx.trans (.of_edited hs hx.quiet)
    send := fun _ _ hx => ⟨hx.environment, hx.client, hx.lastStatus, hx.screen, hx.quiet⟩
    run := fun line _ hx => hx.trans (Shell.retains_capture depth line hx.quiet) }
  exact runFor_invariant hk b args (.refl hquiet)

end Builtin

end CommandShell
