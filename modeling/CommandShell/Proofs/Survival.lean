import CommandShell.Proofs.FileSystem.PathText
import CommandShell.Proofs.Persistence
import CommandShell.Proofs.Rest
import CommandShell.Proofs.Text.Lines
import CommandShell.Repl

/-!
# History across sessions

A session that is ended in a regular way saves its history, and the next one loads it. Every entry
was entered as a line, or was there before, or was read from a file, and none of them is blank. So
all that can go wrong on the way through the file is an end of line within an entry.

## Main statements

- `Repl.draws_run`: where the entries of a session come from.
- `Repl.history_survives`: what the next session finds.
-/

namespace CommandShell

/-- A path that starts at the root leads to the same place from everywhere, when files have been
written. -/
theorem World.Locates.congr {w w' : World} {p : Path} (hp : p.isAbsolute = true)
    (hl : FileSystem.Leads w.files w'.files) {place : Place} {node : Option Node}
    (h : w.Locates p place node) : w'.Locates p place (w'.files.get? place) := by
  have hlocate := hl.locate (show FileSystem.Purpose.create ≠ .look by simp) h.located
  refine ⟨h.named, ?_, hl.plain place (FileSystem.get?_of_locate h.located ▸ h.plain)⟩
  simpa [FileSystem.locate, hp] using hlocate

/-- A path that starts at the root leads to the same file from everywhere. -/
theorem World.Locates.of_files_eq {w w' : World} {p : Path} (hp : p.isAbsolute = true)
    (hfiles : w'.files = w.files) {place : Place} {node : Option Node}
    (h : w.Locates p place node) : w'.Locates p place node := by
  have hleads : FileSystem.Leads w.files w'.files := hfiles ▸ FileSystem.Leads.refl w.files
  have hthere := h.congr hp hleads
  rwa [hfiles, FileSystem.get?_of_locate h.located] at hthere

theorem World.contentAt_congr {w w' : World} {p : Path} (hp : p.isAbsolute = true)
    (h : w'.files = w.files) : w'.contentAt p = w.contentAt p := by
  simp [contentAt, bytesAt, read, unreadable?, FileSystem.read, FileSystem.stat,
    FileSystem.locate, hp, h]

namespace Session

variable {s : Session} {text : String}

/-- The history file of a session whose variable names it from the root on. -/
theorem historyFile_eq (hfile : s.environment.nonempty? "HISTFILE" = some text)
    (hroot : text.toList.head? = some '/') : s.historyFile = some (Path.ofText text) := by
  obtain ⟨rest, hrest⟩ := List.head?_eq_some_iff.mp hroot
  have hexpand : s.expandHome text = text := by
    unfold expandHome
    rw [hrest]
    split <;> simp_all
  simp [historyFile, hfile, resolvePath, hexpand,
    Path.join_of_isAbsolute (Path.isAbsolute_ofText hroot)]

theorem entries_flushHistory (s : Session) :
    s.flushHistory.2.history.entries = s.history.entries := by
  unfold flushHistory
  split
  · rfl
  · next file _ =>
    have hwritten := History.entries_write s.history s.world file
    split <;> next hw =>
      rw [hw] at hwritten
      first
      | exact hwritten
      | exact (congrArg History.entries (Rests.note _ .error "history" _ none).history).trans
          hwritten

/-- A history that has been saved in a file is what the file holds. -/
theorem contentAt_flushHistory {s' : Session} {p : Path} {place : Place} {node : Option Node}
    (hfile : s.historyFile = some p) (hs : s.world.Storable p place node)
    (h : s.flushHistory = (.ok (), s')) :
    s'.history.entries = s.history.entries ∧
      s'.world.contentAt p = Utf8.encode (Text.joinLines s.history.entries) ∧
      ∃ content executable, s'.world.Locates p place (some (.file content executable)) := by
  obtain ⟨w, content, executable, hw, hafter, hbytes, -⟩ :=
    hs.writeText .truncate (Text.joinLines s.history.entries)
  simp only [flushHistory, hfile, History.write, hw] at h
  cases h
  rw [hafter.bytesAt] at hbytes
  exact ⟨rfl, hafter.contentAt.trans (by simpa using hbytes), content, executable, hafter.toLocates⟩

/-- What a new session loads from a file. -/
theorem loadHistory_eq {p : Path} (hfile : s.historyFile = some p) (hnew : s.history = {})
    {content : Bytes} (hread : s.world.read p = .ok content) :
    ∃ count s', s.loadHistory = (.ok count, s') ∧
      s'.history.entries = History.entriesOf content := by
  have heq : s.history.load s.world p =
      .ok (({ entries := History.entriesOf content } : History).markStored,
      (History.entriesOf content).length) := by
    simp [History.load, History.read, hread, Except.map, hnew]
  unfold loadHistory
  simp only [hfile, heq]
  refine ⟨_, _, rfl, ?_⟩
  rw [(Rests.note _ .debug "history" _ none).history, History.entries_markStored]

end Session

namespace Repl

/-- A prompt that changes nothing but the screen. -/
def Prompts (showPrompt : Session → Session) : Prop :=
  ∀ s, ∃ screen, showPrompt s = { s with screen }

variable {showPrompt : Session → Session}

/-- The session when the last line is read, or the end of the input. -/
def lastPrompt (showPrompt : Session → Session) : List String → Session → Session
  | [], s => s
  | line :: rest, s =>
    match Shell.execute (showPrompt s) line with
    | (.ok _, s') => lastPrompt showPrompt rest s'
    | (.error .interrupt, s') =>
      lastPrompt showPrompt rest
        { s'.display .err "\n" with lastStatus := Pipeline.statusInterrupted }
    | (.error _, _) => s

/-- Where an entry of the history may come from. -/
def Drawn (lines entries : List String) (entry : String) : Prop :=
  entry ∈ entries ∨ (∃ line ∈ lines, entry = Text.strip line ∧ entry ≠ "") ∨
    ∃ content, entry ∈ History.entriesOf content

theorem Drawn.mono {lines lines' entries : List String} {entry : String}
    (h : Drawn lines' entries entry) (hsub : ∀ line ∈ lines', line ∈ lines) :
      Drawn lines entries entry :=
  h.imp_right fun h => h.imp_left fun ⟨line, hline, he⟩ => ⟨line, hsub line hline, he⟩

/-- What comes from where a line has been executed comes from where it was. -/
theorem Drawn.back {line : String} {rest entries entries' : List String} {entry : String}
    (h : Drawn rest entries' entry) (hexecuted : ∀ e ∈ entries', Drawn [line] entries e) :
    Drawn (line :: rest) entries entry := by
  obtain hold | hnew | hread := h
  · exact (hexecuted entry hold).mono (by simp)
  · exact .inr (.inl (hnew.imp fun _ h => ⟨by simp [h.1], h.2⟩))
  · exact .inr (.inr hread)

theorem drawn_execute (s : Session) (line : String) :
    ∀ entry ∈ (Shell.execute s line).2.history.entries, Drawn [line] s.history.entries entry := by
  intro entry hentry
  obtain hold | hnew | hread := (Shell.draws_execute s line).2 entry hentry
  · exact .inl hold
  · exact .inr (.inl ⟨line, by simp, hnew⟩)
  · exact .inr (.inr hread)

theorem entries_terminate (ending : InputEnd) (s : Session) :
    (terminate ending s).session.history.entries = s.history.entries := by
  have hflush := (s.display .out "\n").entries_flushHistory
  unfold terminate
  generalize (s.display .out "\n").flushHistory = flushed at hflush
  split <;> exact hflush

/-- Where the entries of a session come from: they were there before, were entered as lines, or were
read from files. -/
theorem drawn_run (hshow : Prompts showPrompt) (ending : InputEnd) (lines : List String)
    (s : Session) :
    ∀ entry ∈ (run showPrompt ending lines s).session.history.entries,
      Drawn lines s.history.entries entry := by
  induction lines generalizing s with
  | nil =>
    intro entry hentry
    obtain ⟨screen, hscreen⟩ := hshow s
    rw [run, entries_terminate, hscreen] at hentry
    exact .inl hentry
  | cons line rest ih =>
    intro entry hentry
    have hexecuted := drawn_execute (showPrompt s) line
    obtain ⟨screen, hscreen⟩ := hshow s
    rw [show (showPrompt s).history.entries = s.history.entries by rw [hscreen]] at hexecuted
    unfold run at hentry
    generalize Shell.execute (showPrompt s) line = executed at hexecuted hentry
    split at hentry
    · exact (ih _ entry hentry).back hexecuted
    · exact (ih _ entry hentry).back hexecuted
    · exact (hexecuted entry hentry).mono (by simp)
    · exact (hexecuted entry hentry).mono (by simp)

/-- What the end of the input leaves behind. -/
theorem contentAt_terminate {ending : InputEnd} {s : Session} {p : Path} {place : Place}
    {node : Option Node} (hfile : s.historyFile = some p)
    (hstorable : s.world.Storable p place node) (hend : (terminate ending s).phase = .terminated) :
    (terminate ending s).session.world.contentAt p =
        Utf8.encode (Text.joinLines (terminate ending s).session.history.entries) ∧
      ∃ content executable, (terminate ending s).session.world.Locates p place
        (some (.file content executable)) := by
  have hfile : (s.display .out "\n").historyFile = some p := hfile
  have hstorable : (s.display .out "\n").world.Storable p place node := hstorable
  unfold terminate at hend ⊢
  generalize s.display .out "\n" = t at hfile hstorable hend ⊢
  rcases hflush : t.flushHistory with ⟨f | _, t'⟩ <;> rw [hflush] at hend
  · cases hend
  · obtain ⟨hentries, hbytes, hafter⟩ := Session.contentAt_flushHistory hfile hstorable hflush
    exact ⟨hbytes.trans (by rw [hentries]), hafter⟩

/-- What a session leaves behind that is ended in a regular way: its history is what the file
holds. -/
theorem contentAt_run (hshow : Prompts showPrompt) {ending : InputEnd} {lines : List String}
    {s : Session} {text : String} (hfile : s.environment.nonempty? "HISTFILE" = some text)
    (hroot : text.toList.head? = some '/')
    (hend : (run showPrompt ending lines s).phase = .terminated)
    (hidle : (lastPrompt showPrompt lines s).world.tasks = []) {place : Place} {node : Option Node}
    (hstorable : (lastPrompt showPrompt lines s).world.Storable (Path.ofText text) place node) :
    (run showPrompt ending lines s).session.world.contentAt (Path.ofText text) =
        Utf8.encode (Text.joinLines (run showPrompt ending lines s).session.history.entries) ∧
      ∃ content executable, (run showPrompt ending lines s).session.world.Locates
        (Path.ofText text) place (some (.file content executable)) := by
  have hp := Path.isAbsolute_ofText hroot
  induction lines generalizing s with
  | nil =>
    obtain ⟨screen, hscreen⟩ := hshow s
    rw [lastPrompt] at hstorable
    rw [run, hscreen] at hend ⊢
    exact contentAt_terminate (Session.historyFile_eq hfile hroot) hstorable hend
  | cons line rest ih =>
    have henvironment := (Shell.draws_execute (showPrompt s) line).1
    have hexit (code : Int) (s' : Session) :=
      @Shell.execute_exit (showPrompt s) s' line code
    obtain ⟨screen, hscreen⟩ := hshow s
    have hworld : (showPrompt s).world = s.world := by rw [hscreen]
    rw [show (showPrompt s).environment = s.environment by rw [hscreen]] at henvironment
    rw [hworld] at hexit
    rw [run] at hend ⊢
    rw [lastPrompt] at hidle hstorable
    generalize Shell.execute (showPrompt s) line =
      executed at henvironment hexit hend hidle hstorable ⊢
    split at hend <;> dsimp only at henvironment hend hidle hstorable ⊢
    · refine ih ?_ hend hidle hstorable
      rwa [henvironment]
    · next s' =>
      refine ih ?_ hend hidle hstorable
      change s'.environment.nonempty? "HISTFILE" = some text
      rwa [henvironment]
    · next code s' =>
      obtain ⟨before, after, hleads, hstands, -, hflush, hafter⟩ := hexit code s' hidle rfl
      have hbefore : before.environment.nonempty? "HISTFILE" = some text := by
        rw [show before.environment = (showPrompt s).environment
          from congrArg Standing.environment hstands, hscreen]
        exact hfile
      have hrestraint : before.world.restraint = s.world.restraint :=
        hworld ▸ congrArg Standing.restraint hstands
      have hthere : before.world.Storable (Path.ofText text) place
          (before.world.files.get? place) :=
        ⟨hstorable.congr hp hleads, hrestraint ▸ hstorable.free⟩
      have hpath := Session.historyFile_eq hbefore hroot
      obtain ⟨hentries, hbytes, content, executable, hstored⟩ :=
        Session.contentAt_flushHistory hpath hthere hflush
      refine ⟨?_, content, executable, hstored.of_files_eq hp hafter.files⟩
      rw [World.contentAt_congr hp hafter.files, hbytes, hafter.history, hentries]
    · cases hend

/-- What the next session finds in the history of a session that is ended in a regular way, if the
file can be written and read and no program is left that might write to it: all its entries, and
just as they were if none has an end of line within. None has if no line had and no entry that was
there before. -/
theorem history_survives (hshow : Prompts showPrompt) (ending : InputEnd) (lines : List String)
    (s : Session) {text : String} (hfile : s.environment.nonempty? "HISTFILE" = some text)
    (hroot : text.toList.head? = some '/')
    (hstart : ∀ e ∈ s.history.entries, Text.isBlankText e = false)
    (hend : (run showPrompt ending lines s).phase = .terminated)
    (hidle : (lastPrompt showPrompt lines s).world.tasks = []) {place : Place} {node : Option Node}
    (hstorable : (lastPrompt showPrompt lines s).world.Storable (Path.ofText text) place node)
    (next : Session) (hnext : next.environment.nonempty? "HISTFILE" = some text)
    (hnew : next.history = {})
    (hfiles : next.world.files = (run showPrompt ending lines s).session.world.files)
    (hreadable : next.world.unreadable? (Path.ofText text) = none) :
    let entries := (run showPrompt ending lines s).session.history.entries
    ∃ count next', next.loadHistory = (.ok count, next') ∧
      (next'.history.entries = entries ↔ ∀ e ∈ entries, Text.IsLine e) ∧
      ((∀ line ∈ lines, Text.IsLine line) → (∀ e ∈ s.history.entries, Text.IsLine e) →
        next'.history.entries = entries) := by
  intro entries
  have hp := Path.isAbsolute_ofText hroot
  obtain ⟨hbytes, content, executable, hstored⟩ :=
    contentAt_run hshow hfile hroot hend hidle hstorable
  have hdrawn := drawn_run hshow ending lines s
  have hnext' := hstored.of_files_eq hp hfiles
  have hread := hnext'.read (by simp) hreadable
  rw [← hnext'.contentAt, World.contentAt_congr hp hfiles, hbytes] at hread
  obtain ⟨count, next', hload, hentries⟩ :=
    Session.loadHistory_eq (Session.historyFile_eq hnext hroot) hnew hread
  have htext : ∀ e ∈ entries, Text.isBlankText e = false := by
    intro e he
    obtain hold | ⟨line, -, rfl, hne⟩ | ⟨content, hread⟩ := hdrawn e he
    · exact hstart e hold
    · exact Text.isBlankText_strip hne
    · exact (History.storable_of_mem_entriesOf hread).text
  have hsame : next'.history.entries = entries ↔ ∀ e ∈ entries, Text.IsLine e := by
    rw [hentries, History.entriesOf_encode_joinLines]
    exact ⟨fun h e he => (h e he).line, fun h e he => ⟨h e he, htext e he⟩⟩
  refine ⟨count, next', hload, hsame, fun hlines hbefore => hsame.mpr fun e he => ?_⟩
  obtain hold | ⟨line, hline, rfl, -⟩ | ⟨content, hread⟩ := hdrawn e he
  · exact hbefore e hold
  · exact fun c hc => hlines line hline c (Text.mem_of_mem_strip hc)
  · exact (History.storable_of_mem_entriesOf hread).line

/-- A session at its first prompt that has a history and a file for it. -/
def remembering (entries : List String) : Session :=
  { environment := ⟨[("HISTFILE", "/h")]⟩, cwd := Path.ofParts [], history := { entries },
    world := {}, machine := ⟨fun _ _ _ => .error .notFound⟩ }

theorem storable_remembering (entries : List String) :
    (remembering entries).world.Storable (Path.ofText "/h") ["h"] none := by
  have hname : ¬ FileSystem.maxName < (Utf8.encode "h").length := by decide
  have hpath : Path.ofText "/h" = Path.ofParts ["h"] := by decide
  refine ⟨⟨?_, ?_, trivial⟩, rfl⟩
  · rw [hpath]
    decide
  · rw [hpath, FileSystem.locate, if_neg (by decide)]
    simp [remembering, hname, Path.ofParts, Path.isAbsolute, FileSystem.walk, FileSystem.get?]

/-- When nothing is entered the history is saved nevertheless. -/
theorem phase_remembering (entries : List String) :
    (run id .endOfInput [] (remembering entries)).phase = .terminated := by
  have hfile : (remembering entries).historyFile = some (Path.ofText "/h") := by
    exact Session.historyFile_eq rfl (by decide)
  obtain ⟨w, _, _, hw, -⟩ :=
    (storable_remembering entries).writeText .truncate (Text.joinLines entries)
  have hflush : ((remembering entries).display .out "\n").flushHistory =
      (.ok (), { (remembering entries).display .out "\n" with
        history := ({ entries } : History).markStored, world := w }) := by
    unfold Session.flushHistory
    rw [show ((remembering entries).display .out "\n").historyFile =
      some (Path.ofText "/h") from hfile]
    simp [History.write, remembering, Session.display] at hw ⊢
    simp [hw]
  simp [run, terminate, hflush]

theorem prompts_id : Prompts id := fun s => ⟨s.screen, rfl⟩

/-- When nothing is entered the history comes back, but for an entry with a tabulation of lines. -/
theorem history_survives_unless_tabulated :
    let o (entries : List String) := run id .endOfInput [] (remembering entries)
    let next (entries : List String) : Session :=
      { remembering [] with world := { files := (o entries).session.world.files } }
    (o ["echo a"]).phase = .terminated ∧
      (∃ count s, (next ["echo a"]).loadHistory = (.ok count, s) ∧
        s.history.entries = (o ["echo a"]).session.history.entries) ∧
      ∃ count s, (next ["echo a\u000bb"]).loadHistory = (.ok count, s) ∧
        s.history.entries ≠ (o ["echo a\u000bb"]).session.history.entries := by
  intro o next
  have hentries (entries : List String) : (o entries).session.history.entries = entries := by
    rw [show o entries = terminate .endOfInput (remembering entries) from rfl, entries_terminate]
    rfl
  have hstart : ∀ e ∈ ["echo a", "echo a\u000bb"], Text.isBlankText e = false := by decide
  have hfile : (remembering []).environment.nonempty? "HISTFILE" = some "/h" := rfl
  have hreadable (entries : List String) :
      (next entries).world.unreadable? (Path.ofText "/h") = none := by
    unfold World.unreadable?
    split <;> rfl
  refine ⟨phase_remembering _, ?_, ?_⟩
  · obtain ⟨count, s, hload, -, hsame⟩ := history_survives prompts_id .endOfInput []
      (remembering ["echo a"]) hfile (by decide) (fun e he => hstart e (by simp_all [remembering]))
      (phase_remembering _) rfl (storable_remembering _) (next ["echo a"]) hfile rfl rfl
      (hreadable _)
    exact ⟨count, s, hload, hsame (by simp) (by simp [remembering]; decide)⟩
  · obtain ⟨count, s, hload, hsame, -⟩ := history_survives prompts_id .endOfInput []
      (remembering ["echo a\u000bb"]) hfile (by decide) (fun e he =>
        hstart e (by simp_all [remembering]))
      (phase_remembering _) rfl (storable_remembering _) (next ["echo a\u000bb"]) hfile rfl rfl
      (hreadable _)
    refine ⟨count, s, hload, fun heq => ?_⟩
    have hline := hsame.mp heq "echo a\u000bb" (by
      rw [show (run id .endOfInput [] (remembering ["echo a\u000bb"])).session.history.entries =
        _ from
        hentries _]
      simp)
    exact absurd hline (by decide)

end Repl

end CommandShell
