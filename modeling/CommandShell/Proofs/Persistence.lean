import CommandShell.Proofs.Builtin.Edits
import CommandShell.Proofs.FileSystem.Storage
import CommandShell.Proofs.Text.Utf8

/-!
# What a history has stored

A history is typed, read from files and stored in files, and any of these file operations may be
refused, or cut short. What has not been stored is always what was added since the last time that
the history was stored or loaded as a whole, so nothing is stored twice and nothing is left out: a
file that holds nothing else, and that no write has been cut short in, holds the first entries, up
to the watermark.

A run carries along what was added since; it is read off the operations alone, not off the
watermark.

## Main statements

- `World.writeText_cases`, `World.cutShort_of_writeText`: what has come of writing a text.
- `History.Record.Sound.run`: the watermark after any run.
- `History.Record.Sound.added`: what an addition stores.
- `History.persisted`: both, and what a file holds that was filled by additions and full writes.
-/

namespace CommandShell

section Files

variable {w w' : World} {p : Path} {place : Place} {node : Option Node}

/-- Writing a text is refused before anything is done, or what has come of it is in the files. -/
theorem World.writeText_cases (w : World) (p : Path) (mode : OpenMode) (text : String) :
    (∃ f, w.writeText p mode text = (w, .error f)) ∨
      ∃ files result place node, w.writeText p mode text = ({ w with files }, guarded p result) ∧
        Path.hasNull p.text = false ∧
          FileSystem.Wrote w.restraint w.directory p mode (Utf8.encode text)
          w.files files result place node := by
  unfold writeText
  cases hnull : Path.hasNull p.text with
  | true => exact .inl ⟨.embeddedNull, rfl⟩
  | false =>
    obtain ⟨e, hrefused⟩ | ⟨files, result, place, node, hwrite, hw⟩ :=
      w.files.writeFile_cases w.restraint w.directory p mode (Utf8.encode text)
    · exact .inl ⟨.system e p, by simp [hrefused]⟩
    · refine .inr ⟨files, result, place, node, ?_, rfl, hw⟩
      rcases result with e | _ <;> simp [guarded, hnull, hwrite]

/-- A text that cannot be written leaves the files as they were, or the writing has been cut
short. -/
theorem World.cutShort_of_writeText {w w' : World} {p : Path} {mode : OpenMode}
    {text : String} {f : Fault} (h : w.writeText p mode text = (w', .error f)) :
      ∃ files, w' = { w with files } ∧ (files = w.files ∨
      FileSystem.CutShort w.restraint w.directory p mode (Utf8.encode text) w.files files) := by
  obtain ⟨f', hrefused⟩ | ⟨files, result, place, node, hwritten, hnull, hwrote⟩ :=
    w.writeText_cases p mode text
  · cases h.symm.trans hrefused
    exact ⟨w.files, rfl, .inl rfl⟩
  · obtain ⟨rfl, hresult⟩ := Prod.mk.inj (h.symm.trans hwritten)
    rcases result with e | _
    · exact ⟨files, rfl, .inr ⟨e, place, node, hwrote⟩⟩
    · simp [guarded, hnull] at hresult

/-- The bytes that a path leads to; none if nothing can be read there. -/
def World.bytesAt (w : World) (p : Path) : Bytes :=
  match w.read p with
  | .ok bytes => bytes
  | .error _ => []

/-- The bytes of the file that a path leads to, whether or not the process may read them. -/
def World.contentAt (w : World) (p : Path) : Bytes :=
  ({ w with restraint := fun _ => {} } : World).bytesAt p

/-- A path leads to a file, or to where one can be made. -/
structure World.Locates (w : World) (p : Path) (place : Place) (node : Option Node) : Prop where
  named : Path.hasNull p.text = false
  located : w.files.locate .create w.directory p = .ok (place, node)
  plain : FileSystem.IsPlain node

/-- A file can be stored at a path, for the process may do everything there. -/
structure World.Storable (w : World) (p : Path) (place : Place) (node : Option Node) : Prop
    extends w.Locates p place node where
  free : (w.restraint place).IsFree

/-- Where a path leads does not depend on what the process may do there. -/
theorem World.Locates.under (h : w.Locates p place node)
    (restraint : Place → FileSystem.Restraint) : World.Locates { w with restraint } p place node :=
  ⟨h.named, h.located, h.plain⟩

/-- A file that the process may read is read. -/
theorem World.Locates.read (h : w.Locates p place node) (hnode : node ≠ none)
    (hread : w.unreadable? p = none) : w.read p = .ok (FileSystem.held node) := by
  simp [World.read, guarded, h.named, hread, FileSystem.read_of_locate h.located h.plain hnode]

theorem World.Storable.unreadable? (h : w.Storable p place node) : w.unreadable? p = none := by
  have hfree : (w.restraint place).unreadable = none := by rw [h.free]
  have hfollow := FileSystem.locate_follow h.located
  cases node with
  | none => simp [World.unreadable?, FileSystem.stat, hfollow, FileSystem.present]
  | some n => simp [World.unreadable?, FileSystem.stat, hfollow, FileSystem.present, hfree]

theorem World.Storable.bytesAt (h : w.Storable p place node) :
    w.bytesAt p = FileSystem.held node := by
  unfold World.bytesAt
  cases node with
  | none =>
    have hfollow := FileSystem.locate_follow h.located
    simp [World.read, guarded, h.named, h.unreadable?, FileSystem.read, FileSystem.stat, hfollow,
      FileSystem.present, FileSystem.held]
  | some n => rw [h.read (by simp) h.unreadable?]

theorem World.Locates.contentAt (h : w.Locates p place node) :
    w.contentAt p = FileSystem.held node :=
  World.Storable.bytesAt ⟨h.under _, rfl⟩

/-- What stands where a file can be stored can be read. -/
theorem World.Storable.read_eq (h : w.Storable p place node) (hnode : node ≠ none) :
    w.read p = .ok (w.bytesAt p) := by
  rw [h.bytesAt]
  exact h.read hnode h.unreadable?

/-- A text that has been written to a file as a whole is what the file holds, after what it held if
it was added. -/
theorem World.Locates.of_writeText_ok (h : w.Locates p place node) {mode : OpenMode} {text : String}
    (hw : w.writeText p mode text = (w', .ok ())) :
    ∃ content executable, w'.Locates p place (some (.file content executable)) ∧
      w'.contentAt p = (if mode = .append then w.contentAt p else []) ++ Utf8.encode text ∧
      FileSystem.SameBut place w.files w'.files ∧ w'.restraint = w.restraint := by
  obtain ⟨f, hrefused⟩ | ⟨files, result, place', node', hwritten, hnull, hwrote⟩ :=
    w.writeText_cases p mode text
  · cases hw.symm.trans hrefused
  · obtain ⟨rfl, hresult⟩ := Prod.mk.inj (hw.symm.trans hwritten)
    obtain ⟨rfl, rfl⟩ : place = place' ∧ node = node' := by
      simpa using h.located.symm.trans hwrote.located
    obtain ⟨content, executable, hlocate, hcontent⟩ := hwrote.file h.plain
    have hthere : World.Locates { w with files } p place (some (.file content executable)) :=
      ⟨h.named, hlocate, trivial⟩
    refine ⟨content, executable, hthere, ?_, hwrote.same, rfl⟩
    have hok : result = .ok () := by
      rcases result with e | _
      · simp [guarded, hnull] at hresult
      · rfl
    rw [hthere.contentAt, h.contentAt, FileSystem.held, hcontent,
      FileSystem.Restraint.take_of_ok (hwrote.result_eq.symm.trans hok), FileSystem.kept]

/-- A text that cannot be written leaves nothing behind where nothing is cut short. -/
theorem World.eq_of_writeText_error {mode : OpenMode} {text : String} {f : Fault}
    (hwhole : ∀ place, (w.restraint place).limit = none)
    (hw : w.writeText p mode text = (w', .error f)) : w' = w := by
  obtain ⟨e, hrefused⟩ | ⟨files, result, place, node, hwritten, hnull, hwrote⟩ :=
    w.writeText_cases p mode text
  · exact (Prod.mk.inj (hw.symm.trans hrefused)).1
  · have hresult := (Prod.mk.inj (hw.symm.trans hwritten)).2
    rw [hwrote.result_eq, FileSystem.Restraint.take_of_limit_eq_none (hwhole place)] at hresult
    simp [guarded, hnull] at hresult

/-- A text is refused as a whole where the process may not write. -/
theorem World.Locates.writeText_unwritable (h : w.Locates p place node) {e : Errno}
    (he : (w.restraint place).unwritable = some e) (mode : OpenMode) (text : String) :
    w.writeText p mode text = (w, .error (.system e p)) := by
  obtain ⟨f, opened, -, -, hopen, rfl, -⟩ :=
    FileSystem.openAt_plain (FileSystem.get?_of_locate h.located) h.plain mode
  simp [World.writeText, h.named, FileSystem.writeFile, FileSystem.openFile, h.located, hopen, he]

/-- Where the process may write, a file holds afterwards what stayed of it and what its place has
taken of the text. -/
theorem World.Locates.writeText (h : w.Locates p place node)
    (hwritable : (w.restraint place).unwritable = none) (mode : OpenMode) (text : String) :
    let taken := (w.restraint place).take (FileSystem.kept mode node).length (Utf8.encode text)
    ∃ w' content executable, w.writeText p mode text = (w', guarded p taken.2) ∧
      w'.Locates p place (some (.file content executable)) ∧ w'.restraint = w.restraint ∧
      w'.contentAt p = FileSystem.kept mode node ++ taken.1 ∧
        FileSystem.SameBut place w.files w'.files := by
  intro taken
  obtain ⟨files, result, hwrite, hwrote⟩ :=
    FileSystem.writeFile_plain h.located h.plain hwritable mode (Utf8.encode text)
  obtain ⟨content, executable, hlocate, hcontent⟩ := hwrote.file h.plain
  have hthere : World.Locates { w with files } p place (some (.file content executable)) :=
    ⟨h.named, hlocate, trivial⟩
  refine ⟨_, content, executable, ?_, hthere, rfl, hthere.contentAt.trans hcontent, hwrote.same⟩
  rw [World.writeText, if_neg (by simp [h.named]), hwrite, hwrote.result_eq]
  rcases taken.2 with e | _ <;> simp [guarded, h.named]

/-- Where a file can be stored every text can be written. -/
theorem World.Storable.writeText (h : w.Storable p place node) (mode : OpenMode) (text : String) :
    ∃ w' content executable, w.writeText p mode text = (w', .ok ()) ∧
      w'.Storable p place (some (.file content executable)) ∧
      w'.bytesAt p = (if mode = .append then w.bytesAt p else []) ++ Utf8.encode text ∧
      FileSystem.SameBut place w.files w'.files := by
  have htaken (held : Nat) :
      (w.restraint place).take held (Utf8.encode text) = (Utf8.encode text, .ok ()) :=
    FileSystem.Restraint.take_of_limit_eq_none (by rw [h.free]) held _
  obtain ⟨w', content, executable, hwrite, hthere, hkept, hcontent, hsame⟩ :=
    h.toLocates.writeText (by rw [h.free]) mode text
  rw [htaken] at hwrite hcontent
  have hstorable : w'.Storable p place (some (.file content executable)) := ⟨hthere, hkept ▸ h.free⟩
  refine ⟨w', content, executable, ?_, hstorable, ?_, hsame⟩
  · simpa [guarded, h.named] using hwrite
  · rw [hstorable.bytesAt, ← hthere.contentAt, hcontent, h.bytesAt, FileSystem.kept]

/-- Where nothing stands there is a place for a file, or none can be stored at all. -/
theorem World.locates_or_refused (h : w.exists? p = .ok false) :
    w.contentAt p = [] ∧ ((∃ place, w.Locates p place none) ∨ ∀ restraint mode text,
      ∃ f, World.writeText { w with restraint } p mode text =
        ({ w with restraint }, .error f)) := by
  cases hnull : Path.hasNull p.text with
  | true => simp [World.contentAt, World.bytesAt, World.read, World.writeText, World.guarded, hnull]
  | false =>
    -- the test answers no only where nothing is found
    obtain ⟨e, hstat⟩ : ∃ e, w.files.stat w.directory p = .error e := by
      unfold World.exists? World.test FileSystem.test at h
      cases hs : w.files.stat w.directory p with
      | error e => exact ⟨e, rfl⟩
      | ok found => simp [hnull, hs] at h
    refine ⟨?_, ?_⟩
    · simp [World.contentAt, World.bytesAt, World.read, World.guarded, World.unreadable?, hnull,
        FileSystem.read, hstat]
    · rcases hl : w.files.locate .create w.directory p with e' | ⟨place, _ | n⟩
      · right
        intro restraint mode text
        simp [World.writeText, hnull, FileSystem.writeFile, FileSystem.openFile, hl,
          FileSystem.openAt]
      · exact .inl ⟨place, hnull, hl, trivial⟩
      · simp [FileSystem.stat, FileSystem.locate_follow hl, FileSystem.present] at hstat

end Files

theorem Text.joinLines_append (xs ys : List String) :
    joinLines (xs ++ ys) = joinLines xs ++ joinLines ys := by
  simp [joinLines, String.join_append]

namespace History

/-- In a world with one file the file can be stored. -/
theorem storable_single (content : ByteArray) :
    World.Storable { files := { nodes := [(["h"], .file content false)] } } (Path.ofText "/h") ["h"]
      (some (.file content false)) := by
  have hname : ¬ FileSystem.maxName < (Utf8.encode "h").length := by decide
  have hpath : Path.ofText "/h" = Path.ofParts ["h"] := by decide
  refine ⟨⟨by decide, ?_, trivial⟩, rfl⟩
  rw [hpath, FileSystem.locate, if_neg (by decide)]
  simp [hname, Path.ofParts, Path.isAbsolute, FileSystem.walk, FileSystem.get?]

/-- A world with one file. -/
def filed (text : String) : World where
  files := { nodes := [(["h"], .file (pack (Utf8.encode text)) false)] }

theorem storable_filed (text : String) :
    (filed text).Storable (Path.ofText "/h") ["h"] (some (.file (pack (Utf8.encode text)) false)) :=
  storable_single _

section Results

variable {h h' : History} {w w' : World} {p : Path}

theorem read_eq_ok {n : Nat} (hr : h.read w p = .ok (h', n)) :
    ∃ lines, h' = { h with entries := h.entries ++ lines } ∧ n = lines.length := by
  obtain ⟨content, -, heq⟩ := except_map_eq_ok.mp hr
  obtain ⟨rfl, rfl⟩ := Prod.mk.inj heq
  exact ⟨_, rfl, rfl⟩

theorem load_eq_ok {n : Nat} (hr : h.load w p = .ok (h', n)) :
    ∃ lines, h' = ({ h with entries := h.entries ++ lines } : History).markStored := by
  obtain ⟨⟨g, m⟩, hread, heq⟩ := except_map_eq_ok.mp hr
  obtain ⟨lines, rfl, -⟩ := read_eq_ok hread
  exact ⟨lines, (Prod.mk.inj heq).1.symm⟩

@[simp] theorem entries_write (h : History) (w : World) (p : Path) :
    (h.write w p).1.entries = h.entries := by
  unfold write
  split <;> rfl

theorem world_write (h : History) (w : World) (p : Path) :
    (h.write w p).2.1 = (w.writeText p .truncate (Text.joinLines h.entries)).1 := by
  unfold write
  split <;> next hw => rw [hw]

@[simp] theorem entries_appendTo (h : History) (w : World) (p : Path) :
    (h.appendTo w p).1.entries = h.entries := by
  unfold appendTo
  split
  · rfl
  · split <;> rfl

theorem world_appendTo {h : History} (hnew : h.unstored ≠ []) (w : World) (p : Path) :
    (h.appendTo w p).2.1 = (w.writeText p .append (Text.joinLines h.unstored)).1 := by
  unfold appendTo
  rw [if_neg (by simpa using hnew)]
  split <;> next hw => rw [hw]

theorem write_eq_ok (hw : h.write w p = (h', w', .ok ())) :
    h' = h.markStored ∧ w.writeText p .truncate (Text.joinLines h.entries) = (w', .ok ()) := by
  unfold write at hw
  split at hw <;> cases hw
  next hstore => exact ⟨rfl, hstore⟩

theorem write_eq_error {f : Fault} (hw : h.write w p = (h', w', .error f)) :
    h' = h ∧ w.writeText p .truncate (Text.joinLines h.entries) = (w', .error f) := by
  unfold write at hw
  split at hw <;> cases hw
  next hstore => exact ⟨rfl, hstore⟩

/-- An addition stores what has not been stored, once, or there is nothing and the world is left
alone. -/
theorem appendTo_eq_ok {n : Nat} (hw : h.appendTo w p = (h', w', .ok n)) :
    n = h.unstored.length ∧
      ((h.unstored = [] ∧ h' = h ∧ w' = w) ∨
        (h.unstored ≠ [] ∧ h' = h.markStored ∧
          w.writeText p .append (Text.joinLines h.unstored) = (w', .ok ()))) := by
  unfold appendTo at hw
  split at hw
  · next hempty =>
    cases hw
    have hnone := List.isEmpty_iff.mp hempty
    exact ⟨by simp [hnone], .inl ⟨hnone, rfl, rfl⟩⟩
  · next hempty =>
    split at hw <;> cases hw
    next hstore => exact ⟨rfl, .inr ⟨by simpa using hempty, rfl, hstore⟩⟩

theorem appendTo_eq_error {f : Fault} (hw : h.appendTo w p = (h', w', .error f)) :
    h' = h ∧ w.writeText p .append (Text.joinLines h.unstored) = (w', .error f) := by
  unfold appendTo at hw
  split at hw
  · cases hw
  · split at hw <;> cases hw
    next hstore => exact ⟨rfl, hstore⟩

end Results

/-- What is done with a history. -/
inductive Action where
  | append (line : String)
  | clear
  | read (p : Path)
  | load (p : Path)
  | write (p : Path)
  | appendTo (p : Path)
  deriving DecidableEq, Repr

/-- The history and the world after an action, and whether it has succeeded. -/
def Action.perform (h : History) (w : World) : Action → History × World × Except Fault Unit
  | .append line => (h.append line, w, .ok ())
  | .clear => (h.clear, w, .ok ())
  | .read p =>
    match h.read w p with
    | .ok (h, _) => (h, w, .ok ())
    | .error f => (h, w, .error f)
  | .load p =>
    match h.load w p with
    | .ok (h, _) => (h, w, .ok ())
    | .error f => (h, w, .error f)
  | .write p => h.write w p
  | .appendTo p =>
    let (h, w, result) := h.appendTo w p
    (h, w, result.map fun _ => ())

/-- A history with the world and, carried along, the entries that were added since the history was
last loaded, stored or cleared. -/
structure Record where
  history : History
  world : World
  fresh : List String

/-- The entries that are new after an action that has succeeded. -/
def Record.freshAfter (r : Record) (h : History) : Action → List String
  | .append line => r.fresh ++ [line]
  | .read _ => r.fresh ++ h.entries.drop r.history.entries.length
  | .clear | .load _ | .write _ | .appendTo _ => []

/-- Take an action. After one that fails nothing is new that was not new before. -/
def Record.step (r : Record) (action : Action) : Record :=
  match action.perform r.history r.world with
  | (history, world, .ok ()) => ⟨history, world, r.freshAfter history action⟩
  | (history, world, .error _) => ⟨history, world, r.fresh⟩

/-- An action, and what the system refuses the process at that time. -/
structure Attempt where
  action : Action
  restraint : Place → FileSystem.Restraint := fun _ => {}

/-- Nothing that the attempt writes is cut short: what is refused is refused before a file is
touched. -/
def Attempt.IsWhole (t : Attempt) : Prop := ∀ place, (t.restraint place).limit = none

/-- A record at a time when the system refuses the process this and that. -/
def Record.under (r : Record) (restraint : Place → FileSystem.Restraint) : Record :=
  { r with world := { r.world with restraint } }

/-- What becomes of an attempt. -/
def Record.attempt (r : Record) (t : Attempt) : Record := (r.under t.restraint).step t.action

/-- Make attempts one after the other. -/
def Record.run (r : Record) (ts : List Attempt) : Record := ts.foldl Record.attempt r

/-- A history that has been given entries, none of them stored. -/
def Record.start (entries : List String) (w : World) : Record := ⟨{ entries }, w, entries⟩

/-- The watermark lies within the history, and what lies above it is new. -/
structure Record.Sound (r : Record) : Prop where
  within : r.history.watermark ≤ r.history.entries.length
  unstored : r.history.unstored = r.fresh

section Sound

variable {h h' : History} {w w' : World} {p : Path} {r : Record}

/-- An action that fails leaves the history as it was. -/
theorem Action.history_of_error {action : Action} {f : Fault}
    (hp : action.perform h w = (h', w', .error f)) : h' = h := by
  cases action with
  | append line => cases hp
  | clear => cases hp
  | read p | load p =>
    simp only [Action.perform] at hp
    split at hp <;> cases hp
    rfl
  | write p => exact (write_eq_error hp).1
  | appendTo p =>
    rcases ha : h.appendTo w p with ⟨g, v, e | n⟩ <;> simp only [Action.perform, ha]
        at hp <;> cases hp
    exact (appendTo_eq_error ha).1

/-- An action that fails changes nothing at all where nothing is cut short. -/
theorem Action.world_of_error {action : Action} {f : Fault}
    (hwhole : ∀ place, (w.restraint place).limit = none)
    (hp : action.perform h w = (h', w', .error f)) : w' = w := by
  cases action with
  | append line => cases hp
  | clear => cases hp
  | read p | load p =>
    simp only [Action.perform] at hp
    split at hp <;> cases hp
    rfl
  | write p => exact World.eq_of_writeText_error hwhole (write_eq_error hp).2
  | appendTo p =>
    rcases ha : h.appendTo w p with ⟨g, v, e | n⟩ <;> simp only [Action.perform, ha]
        at hp <;> cases hp
    exact World.eq_of_writeText_error hwhole (appendTo_eq_error ha).2

/-- What becomes of a record when an action has failed. -/
theorem Record.step_of_error {action : Action} {f : Fault}
    (hp : action.perform r.history r.world = (h', w', .error f)) :
    r.step action = ⟨r.history, w', r.fresh⟩ := by
  rw [Record.step, hp, Action.history_of_error hp]

theorem sound_markStored (h : History) (w : World) : Record.Sound ⟨h.markStored, w, []⟩ :=
  ⟨Nat.le_refl _, h.unstored_markStored⟩

/-- More entries are new entries. -/
theorem Record.Sound.add (hr : r.Sound) (lines : List String) (w : World) :
    Record.Sound ⟨{ r.history with entries := r.history.entries ++ lines }, w,
      r.fresh ++ lines⟩ where
  within := by
    have := hr.within
    simp only [List.length_append]
    omega
  unstored := by
    rw [← hr.unstored]
    simp [History.unstored, List.drop_append_of_le_length hr.within]

/-- What is known of the watermark survives an action that succeeds. -/
theorem Record.Sound.of_perform_ok (hr : r.Sound) {action : Action}
    (hp : action.perform r.history r.world = (h', w', .ok ())) :
    Record.Sound ⟨h', w', r.freshAfter h' action⟩ := by
  cases action with
  | append line =>
    cases hp
    exact hr.add [line] _
  | clear =>
    cases hp
    exact ⟨Nat.le_refl _, rfl⟩
  | read p =>
    simp only [Action.perform] at hp
    split at hp <;> cases hp
    next hread =>
    obtain ⟨lines, rfl, -⟩ := read_eq_ok hread
    simpa [Record.freshAfter] using hr.add lines r.world
  | load p =>
    simp only [Action.perform] at hp
    split at hp <;> cases hp
    next hload =>
    obtain ⟨lines, rfl⟩ := load_eq_ok hload
    exact sound_markStored _ _
  | write p =>
    obtain ⟨rfl, -⟩ := write_eq_ok hp
    exact sound_markStored _ _
  | appendTo p =>
    rcases ha : r.history.appendTo r.world p with ⟨g, v, e | n⟩ <;>
      simp only [Action.perform, ha] at hp <;> cases hp
    obtain ⟨-, ⟨hnone, rfl, rfl⟩ | ⟨-, rfl, -⟩⟩ := appendTo_eq_ok ha
    · exact ⟨hr.within, hnone⟩
    · exact sound_markStored _ _

/-- What is known of the watermark survives every action, whatever the world answers. -/
theorem Record.Sound.step (hr : r.Sound) (action : Action) : (r.step action).Sound := by
  rcases hp : action.perform r.history r.world with ⟨h', w', f | _⟩
  · rw [Record.step_of_error hp]
    exact ⟨hr.within, hr.unstored⟩
  · rw [Record.step, hp]
    exact hr.of_perform_ok hp

theorem Record.Sound.attempt (hr : r.Sound) (t : Attempt) : (r.attempt t).Sound :=
  Record.Sound.step (r := r.under t.restraint) ⟨hr.within, hr.unstored⟩ t.action

theorem Record.Sound.run (hr : r.Sound) (ts : List Attempt) : (r.run ts).Sound := by
  induction ts generalizing r with
  | nil => exact hr
  | cons t ts ih => exact ih (hr.attempt t)

theorem sound_start (entries : List String) (w : World) : (Record.start entries w).Sound :=
  ⟨Nat.zero_le _, rfl⟩

end Sound

/-- The attempts that type a line, add to one file or write that file. -/
def Attempt.KeepsTo (p : Path) (t : Attempt) : Prop :=
  (∃ line, t.action = .append line) ∨ t.action = .appendTo p ∨ t.action = .write p

/-- A file that holds the entries below the watermark, and whose storing can be followed. -/
structure Record.Mirrored (r : Record) (p : Path) : Prop where
  bytes : r.world.contentAt p =
    Utf8.encode (Text.joinLines (r.history.entries.take r.history.watermark))
  access : (∃ place node, r.world.Locates p place node) ∨ ∀ restraint mode text, ∃ f,
    World.writeText { r.world with restraint } p mode text = ({ r.world with restraint }, .error f)

/-- What an addition to a file does: nothing if nothing is new, and else it stores what is new. -/
structure Record.Added (r : Record) (p : Path) (h' : History) (w' : World) (n : Nat) : Prop where
  count : n = r.fresh.length
  entries : h'.entries = r.history.entries
  watermark : h'.watermark = h'.entries.length
  untouched : r.fresh = [] → w' = r.world
  stored : r.fresh ≠ [] → r.world.writeText p .append (Text.joinLines r.fresh) = (w', .ok ())
  bytes : ∀ place node, r.world.Locates p place node →
    w'.contentAt p = r.world.contentAt p ++ Utf8.encode (Text.joinLines r.fresh) ∧
      FileSystem.SameBut place r.world.files w'.files

section Mirrored

variable {r : Record} {p : Path}

/-- An addition that succeeds adds what is new, once and in order. -/
theorem Record.Sound.added (hr : r.Sound) {h' : History} {w' : World} {n : Nat}
    (ha : r.history.appendTo r.world p = (h', w', .ok n)) : r.Added p h' w' n := by
  obtain ⟨hn, hcases⟩ := appendTo_eq_ok ha
  rw [hr.unstored] at hn hcases
  obtain ⟨hnone, rfl, rfl⟩ | ⟨hsome, rfl, hstore⟩ := hcases
  · have hall : r.history.entries.length ≤ r.history.watermark :=
      List.drop_eq_nil_iff.mp (hr.unstored.trans hnone)
    refine ⟨hn, rfl, Nat.le_antisymm hr.within hall, fun _ => rfl, fun h => absurd hnone h, ?_⟩
    intro place node _
    exact ⟨by simp [hnone, Text.joinLines, Utf8.encode], .refl _ _⟩
  · refine ⟨hn, rfl, rfl, fun h => absurd h hsome, fun _ => hstore, fun place node hthere => ?_⟩
    obtain ⟨-, -, -, hbytes, hsame, -⟩ := hthere.of_writeText_ok hstore
    exact ⟨by simpa using hbytes, hsame⟩

/-- A file mirrors a history in which everything has been stored when the file holds it all. -/
theorem Record.Mirrored.stored (hm : r.Mirrored p) {mode : OpenMode} {text : String} {w' : World}
    (hw : r.world.writeText p mode text = (w', .ok ()))
    (htext : (if mode = .append then r.world.contentAt p else []) ++ Utf8.encode text =
      Utf8.encode (Text.joinLines r.history.entries)) (fresh : List String) :
    Record.Mirrored ⟨r.history.markStored, w', fresh⟩ p := by
  obtain ⟨place, node, hthere⟩ | hrefused := hm.access
  · obtain ⟨content, executable, hafter, hbytes, -, -⟩ := hthere.of_writeText_ok hw
    exact ⟨by simp [hbytes, htext], .inl ⟨place, _, hafter⟩⟩
  · obtain ⟨f, hf⟩ := hrefused r.world.restraint mode text
    cases hw.symm.trans hf

/-- What the system refuses the process does not matter to what the file holds. -/
theorem Record.Mirrored.under (hm : r.Mirrored p) (restraint : Place → FileSystem.Restraint) :
    (r.under restraint).Mirrored p := by
  refine ⟨hm.bytes, hm.access.imp_left ?_⟩
  rintro ⟨place, node, hthere⟩
  exact ⟨place, node, hthere.under restraint⟩

theorem Record.Mirrored.step (hm : r.Mirrored p) (hr : r.Sound)
    (hwhole : ∀ place, (r.world.restraint place).limit = none) {action : Action}
    (ha : (∃ line, action = .append line) ∨ action = .appendTo p ∨ action = .write p) :
    (r.step action).Mirrored p := by
  rcases hp : action.perform r.history r.world with ⟨h', w', f | _⟩
  · rw [Record.step_of_error hp]
    obtain rfl := Action.world_of_error hwhole hp
    exact hm
  · rw [Record.step, hp]
    obtain ⟨line, rfl⟩ | rfl | rfl := ha
    · cases hp
      exact ⟨by simp [List.take_append_of_le_length hr.within, hm.bytes], hm.access⟩
    · rcases happend : r.history.appendTo r.world p with ⟨g, v, e | n⟩ <;>
        simp only [Action.perform, happend] at hp <;> cases hp
      obtain ⟨-, ⟨-, rfl, rfl⟩ | ⟨-, rfl, hstore⟩⟩ := appendTo_eq_ok happend
      · exact ⟨hm.bytes, hm.access⟩
      · refine hm.stored hstore ?_ _
        -- what is below the watermark and what is above it make the whole
        rw [if_pos rfl, hm.bytes, ← Utf8.encode_append, ← Text.joinLines_append]
        simp [History.unstored]
    · obtain ⟨rfl, hstore⟩ := write_eq_ok hp
      exact hm.stored hstore (by simp) _

theorem Record.Mirrored.run (hm : r.Mirrored p) (hr : r.Sound) {ts : List Attempt}
    (hts : ∀ t ∈ ts, t.KeepsTo p ∧ t.IsWhole) : (r.run ts).Mirrored p := by
  induction ts generalizing r with
  | nil => exact hm
  | cons t ts ih =>
    obtain ⟨hkeeps, hwhole⟩ := hts t (by simp)
    have hstep : (r.attempt t).Mirrored p :=
      (hm.under t.restraint).step ⟨hr.within, hr.unstored⟩ hwhole hkeeps
    exact ih hstep (hr.attempt t) fun t' ht' => hts t' (by simp [ht'])

end Mirrored

/-- After any attempts the watermark lies within the history, and above it is what was added since
the history was last loaded, stored or cleared. An attempt that fails leaves the history as it was,
and everything else as well unless a write was cut short. An addition that succeeds stores what is
new and nothing else, and nothing at all if nothing is new. A file that was missing at first, and
was only added to and written, no write being cut short, holds the entries below the watermark. -/
theorem persisted (entries : List String) (w : World) (ts : List Attempt) :
    let r := (Record.start entries w).run ts
    r.Sound ∧
    (∀ (t : Attempt) (h' : History) (w' : World) (f : Fault),
      t.action.perform r.history (r.under t.restraint).world = (h', w', .error f) →
        h' = r.history ∧ r.attempt t = ⟨r.history, w', r.fresh⟩ ∧
        (t.IsWhole → r.attempt t = r.under t.restraint)) ∧
    (∀ (p : Path) (restraint : Place → FileSystem.Restraint) (h' : History) (w' : World) (n : Nat),
      r.history.appendTo (r.under restraint).world p = (h', w', .ok n) →
        (r.under restraint).Added p h' w' n) ∧
    ∀ p : Path, entries = [] → w.exists? p = .ok false → (∀ t ∈ ts, t.KeepsTo p ∧ t.IsWhole) →
      r.world.contentAt p =
          Utf8.encode (Text.joinLines (r.history.entries.take r.history.watermark)) ∧
        (r.fresh = [] → r.world.contentAt p = Utf8.encode (Text.joinLines r.history.entries)) := by
  intro r
  have hsound : r.Sound := (sound_start entries w).run ts
  refine ⟨hsound, fun t h' w' f hf => ?_, fun p restraint h' w' n ha => ?_, ?_⟩
  · have hattempt : r.attempt t = ⟨r.history, w', r.fresh⟩ :=
      Record.step_of_error (r := r.under t.restraint) hf
    refine ⟨Action.history_of_error hf, hattempt, fun hwhole => ?_⟩
    have hworld : w' = (r.under t.restraint).world := Action.world_of_error hwhole hf
    rw [hattempt, hworld]
    rfl
  · exact Record.Sound.added (r := r.under restraint) ⟨hsound.within, hsound.unstored⟩ ha
  · rintro p rfl hmissing hts
    obtain ⟨hempty, haccess⟩ := World.locates_or_refused hmissing
    have hstart : (Record.start [] w).Mirrored p := by
      refine ⟨by simpa [Record.start, Text.joinLines,
        Utf8.encode] using hempty, haccess.imp_left ?_⟩
      rintro ⟨place, h⟩
      exact ⟨place, none, h⟩
    have hbytes := (hstart.run (sound_start [] w) hts).bytes
    refine ⟨hbytes, fun hfresh => ?_⟩
    have hall : r.history.entries.length ≤ r.history.watermark :=
      List.drop_eq_nil_iff.mp (hsound.unstored.trans hfresh)
    rw [hbytes, List.take_of_length_le hall]

/-- A write that is refused between two additions neither loses nor repeats anything. -/
theorem persisted_refused_once :
    let p := Path.ofParts ["h"]
    let ts : List Attempt := [{ action := .append "a" }, { action := .appendTo p },
      { action := .append "b" },
      { action := .write p, restraint := fun _ => { unwritable := some .permissionDenied } },
      { action := .appendTo p }]
    let r := (Record.start [] {}).run ts
    ({} : World).exists? p = .ok false ∧ (∀ t ∈ ts, t.KeepsTo p ∧ t.IsWhole) ∧
      r.history = ⟨["a", "b"], 2⟩ ∧
        r.world.contentAt p = Utf8.encode (Text.joinLines ["a", "b"]) := by
  intro p ts r
  have hnull : Path.hasNull p.text = false := by decide
  have hname : ¬ FileSystem.maxName < (Utf8.encode "h").length := by decide
  have hplace (purpose : FileSystem.Purpose) :
      ({} : FileSystem).locate purpose [] p = .ok (["h"], none) := by
    rw [FileSystem.locate, if_neg (by decide)]
    simp [p, hname, Path.ofParts, Path.isAbsolute, FileSystem.walk, FileSystem.get?]
  have hmissing : ({} : World).exists? p = .ok false := by
    simp [World.exists?, World.test, FileSystem.test, FileSystem.stat, hnull, hplace,
      FileSystem.present, FileSystem.isAbsence]
  have hts : ∀ t ∈ ts, t.KeepsTo p ∧ t.IsWhole := by
    simp [ts, Attempt.KeepsTo, Attempt.IsWhole]
  have hfirst : World.Storable {} p ["h"] none := ⟨⟨hnull, hplace _, trivial⟩, rfl⟩
  have hhistory : r.history = ⟨["a", "b"], 2⟩ := by
    obtain ⟨v, content, executable, hv, hsecond, -⟩ :=
      hfirst.writeText .append (Text.joinLines ["a"])
    have hthird : World.Storable { v with restraint := fun _ => {} } p ["h"]
        (some (.file content executable)) := ⟨hsecond.toLocates.under _, rfl⟩
    obtain ⟨v', -, -, hv', -⟩ := hthird.writeText .append (Text.joinLines ["b"])
    have hrefused := (hsecond.toLocates.under fun _ => { unwritable := some .permissionDenied })
      |>.writeText_unwritable rfl .truncate (Text.joinLines ["a", "b"])
    simp [r, ts, Record.run, Record.attempt, Record.under, Record.step, Record.start,
      Action.perform,
      History.appendTo, History.write, History.append, History.unstored, History.markStored,
      Except.map, hv, hv', hrefused]
  have hbytes : r.world.contentAt p =
      Utf8.encode (Text.joinLines (r.history.entries.take r.history.watermark)) :=
    ((persisted [] {} ts).2.2.2 p rfl hmissing hts).1
  rw [hhistory] at hbytes
  exact ⟨hmissing, hts, hhistory, hbytes⟩

end History

end CommandShell
