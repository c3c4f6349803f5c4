import CommandShell.FileSystem.Basic

/-!
# Storing a file

A path that leads to a file, or to a place where one can be made, still leads there when the file
has been written, and the file then holds what it held, unless it was emptied, and after it what was
written.

## Main statements

- `FileSystem.Leads.locate`: a path leads to the same place as long as its way is there.
- `FileSystem.writeFile_plain`: what writing changes.
-/

namespace CommandShell.FileSystem

/-- Nodes that a path leads on from. -/
def IsWay : Node → Prop
  | .dir | .link _ => True
  | _ => False

/-- What may be written over for good: a file, or nothing. -/
def IsPlain : Option Node → Prop
  | none | some (.file _ _) => True
  | some _ => False

/-- Nothing but one place differs. -/
structure SameBut (place : Place) (fs fs' : FileSystem) : Prop where
  elsewhere : ∀ other, other ≠ place → fs'.get? other = fs.get? other
  closed : fs'.closed = fs.closed

theorem SameBut.refl (place : Place) (fs : FileSystem) : SameBut place fs fs :=
  ⟨fun _ _ => rfl, rfl⟩

theorem SameBut.trans {place : Place} {fs fs' fs'' : FileSystem} (h : SameBut place fs fs')
    (g : SameBut place fs' fs'') : SameBut place fs fs'' :=
  ⟨fun other hother => (g.elsewhere other hother).trans (h.elsewhere other hother),
    g.closed.trans h.closed⟩

theorem sameBut_set (place : Place) (fs : FileSystem) (n : Node) :
    SameBut place fs (fs.set place n) :=
  ⟨fun _ h => get?_set_of_ne fs n h, rfl⟩

variable {fs fs' : FileSystem} {place : Place} {node : Option Node}

/-- What a path leads to is what stands at its place. -/
theorem get?_of_walk {purpose : Purpose} {links : Nat} {start : Place} {names : List String}
    (h : fs.walk purpose links start names = .ok (place, node)) : fs.get? place = node := by
  fun_induction walk fs purpose links start names with
  | case1 | case9 | case11 =>
    obtain ⟨rfl, rfl⟩ : _ ∧ _ := by simpa using h
    first | rfl | assumption
  | case3 _ _ _ _ ih | case5 _ _ _ _ _ _ ih | case6 _ _ _ _ _ _ _ ih => exact ih h
  | case13 | case14 =>
    rename_i ih
    exact ih h
  | _ => cases h

/-- A file system in which every path leads on that leads on in another one: directories, links and
whatever else is there stay there, there are no other links, files are not replaced by other things,
and no other directory is closed. -/
structure Leads (fs fs' : FileSystem) : Prop where
  ways : ∀ place n, fs.get? place = some n → IsWay n → fs'.get? place = some n
  links : ∀ place target, fs'.get? place = some (.link target) → fs.get? place = some (.link target)
  kept : ∀ place, fs.get? place ≠ none → fs'.get? place ≠ none
  plain : ∀ place, IsPlain (fs.get? place) → IsPlain (fs'.get? place)
  closed : fs'.closed = fs.closed

theorem Leads.refl (fs : FileSystem) : Leads fs fs :=
  ⟨fun _ _ h _ => h, fun _ _ h => h, fun _ h => h, fun _ h => h, rfl⟩

theorem Leads.trans {fs'' : FileSystem} (h : Leads fs fs') (g : Leads fs' fs'') :
    Leads fs fs'' where
  ways place n hn hway := g.ways place n (h.ways place n hn hway) hway
  links place target hn := h.links place target (g.links place target hn)
  kept place hn := g.kept place (h.kept place hn)
  plain place hn := g.plain place (h.plain place hn)
  closed := g.closed.trans h.closed

/-- A file is put where there was one, or nothing. -/
theorem leads_of_sameBut {content : ByteArray} {executable : Bool}
    (hplain : IsPlain (fs.get? place)) (hsame : SameBut place fs fs')
    (hfile : fs'.get? place = some (.file content executable)) : Leads fs fs' := by
  refine ⟨fun other n hn hway => ?_, fun other target hn => ?_, fun other hn => ?_,
    fun other hn => ?_, hsame.closed⟩
  · rw [hsame.elsewhere other, hn]
    rintro rfl
    rw [hn] at hplain
    cases n <;> contradiction
  · by_cases heq : other = place
    · subst heq
      rw [hfile] at hn
      cases hn
    · rwa [hsame.elsewhere other heq] at hn
  · by_cases heq : other = place
    · subst heq
      simp [hfile]
    · rwa [hsame.elsewhere other heq]
  · by_cases heq : other = place
    · subst heq
      rw [hfile]
      trivial
    · rwa [hsame.elsewhere other heq]

/-- A path along which a file can be made leads to the same place as long as its way is there. -/
theorem Leads.walk (hl : Leads fs fs') {purpose : Purpose} (hpurpose : purpose ≠ .look)
    {links : Nat} {start : Place} {names : List String}
    (h : fs.walk .create links start names = .ok (place, node)) :
    fs'.walk purpose links start names = .ok (place, fs'.get? place) := by
  generalize hcreate : Purpose.create = p at h
  fun_induction FileSystem.walk fs p links start names with
  | case1 =>
    obtain ⟨rfl, -⟩ : _ ∧ _ := by simpa using h
    rw [FileSystem.walk]
  | case3 links start rest hdir ih =>
    rw [FileSystem.walk, hl.ways _ _ hdir trivial]
    simpa using ih h
  | case5 links start rest hdir hopen hempty ih =>
    rw [FileSystem.walk, hl.ways _ _ hdir trivial, hl.closed]
    simpa [hopen] using ih h
  | case6 links start rest hdir hopen hempty hpoint ih =>
    rw [FileSystem.walk, hl.ways _ _ hdir trivial, hl.closed]
    simpa [hopen] using ih h
  | case9 links start name rest hdir hempty hopen hpoint hpoints hslash hlength hnode hrest =>
    obtain ⟨rfl, rfl⟩ : _ ∧ _ := by simpa using h
    obtain rfl := List.isEmpty_iff.mp hrest
    rw [FileSystem.walk, hl.ways _ _ hdir trivial, hl.closed]
    cases hnew : fs'.get? (start ++ [name]) with
    | none => simp_all
    | some n =>
      cases n with
      | link target => simp [hl.links _ target hnew] at hnode
      | _ => simp_all [FileSystem.walk]
  | case13 start name rest hdir hempty hopen hpoint hpoints hslash hlength target hnode
      hlook links ih =>
    have hnew := hl.ways _ _ hnode trivial
    have hrest : rest ≠ [""] := by simpa [← hcreate] using hslash
    rw [FileSystem.walk, hl.ways _ _ hdir trivial, hl.closed]
    simpa [hempty, hopen, hpoint, hpoints, hlength, hnew, hpurpose, hrest] using ih h
  | case14 links start name rest hdir hempty hopen hpoint hpoints hslash hlength n hlink hnode =>
    rename_i ih
    obtain ⟨n', hnew⟩ := Option.ne_none_iff_exists'.mp (hl.kept (start ++ [name]) (by simp [hnode]))
    have ih := ih h
    rw [FileSystem.walk, hl.ways _ _ hdir trivial, hl.closed]
    cases n' with
    | link target =>
      have hsame := (hl.links _ target hnew).symm.trans hnode
      exact absurd (Option.some.inj hsame).symm (hlink target)
    | _ => simp_all
  | case11 => simp_all
  | _ => cases h

theorem Leads.locate (hl : Leads fs fs') {purpose : Purpose} (hpurpose : purpose ≠ .look)
    {base : Place} {p : Path} (h : fs.locate .create base p = .ok (place, node)) :
    fs'.locate purpose base p = .ok (place, fs'.get? place) := by
  unfold FileSystem.locate at h ⊢
  split at h
  · cases h
  · next hlength =>
    rw [if_neg hlength]
    exact hl.walk hpurpose h

theorem get?_of_locate {purpose : Purpose} {base : Place} {p : Path}
    (h : fs.locate purpose base p = .ok (place, node)) : fs.get? place = node := by
  unfold locate at h
  split at h
  · cases h
  · exact get?_of_walk h

theorem stat_eq_iff {base : Place} {p : Path} {node : Node} : fs.stat base p = .ok (place, node) ↔
    fs.locate .follow base p = .ok (place, some node) := by
  unfold stat present
  split <;> simp_all

/-- Where a file can be made, it is looked for. -/
theorem locate_follow {base : Place} {p : Path} (h : fs.locate .create base p = .ok (place, node)) :
    fs.locate .follow base p = .ok (place, node) := by
  rw [← get?_of_locate h]
  exact (Leads.refl fs).locate (by simp) h

@[simp] theorem get?_touch (fs : FileSystem) (place other : Place) (time : Nat) :
    (fs.touch place time).get? other = fs.get? other := by
  unfold touch
  split <;> rfl

theorem get?_of_locateText {purpose : Purpose} {base : Place} {text : String}
    (h : fs.locateText purpose base text = .ok (place, node)) : fs.get? place = node := by
  unfold locateText at h
  split at h
  · cases h
  · split at h
    · cases h
    · exact get?_of_walk h

theorem Leads.locateText (hl : Leads fs fs') {base : Place} {text : String}
    (h : fs.locateText .create base text = .ok (place, node)) :
    fs'.locateText .create base text = .ok (place, fs'.get? place) := by
  unfold FileSystem.locateText at h ⊢
  split at h
  · cases h
  · next hempty =>
    split at h
    · cases h
    · next hlength =>
      rw [if_neg hempty, if_neg hlength]
      exact hl.walk (by simp) h

@[simp] theorem closed_touch (fs : FileSystem) (place : Place) (time : Nat) :
    (fs.touch place time).closed = fs.closed := by
  unfold touch
  split <;> rfl

/-- The time at which a file was written does not matter to the ways. -/
theorem leads_touch (fs : FileSystem) (place : Place) (time : Nat) :
    Leads fs (fs.touch place time) where
  ways other n hn _ := by rwa [get?_touch]
  links other target hn := by rwa [get?_touch] at hn
  kept other hn := by rwa [get?_touch]
  plain other hn := by rwa [get?_touch]
  closed := closed_touch ..

/-- The root is a directory. -/
theorem ne_nil_of_isPlain (h : IsPlain (fs.get? place)) : place ≠ [] := by
  rintro rfl
  simp [get?, IsPlain] at h

/-- A file is put where there was one, or nothing. -/
theorem leads_set (hplain : IsPlain (fs.get? place)) (content : ByteArray) (executable : Bool)
    (time : Nat) : Leads fs ((fs.set place (.file content executable)).touch place time) := by
  have hroot := ne_nil_of_isPlain hplain
  have hfile : ((fs.set place (.file content executable)).touch place time).get? place =
      some (.file content executable) := by
    rw [get?_touch, get?_set_self _ _ hroot]
  refine leads_of_sameBut hplain ⟨fun other hother => ?_, closed_touch ..⟩ hfile
  rw [get?_touch, get?_set_of_ne _ _ hother]

/-- What a file holds: nothing if there is none. -/
def held : Option Node → Bytes
  | some (.file content _) => unpack content
  | _ => []

theorem read_of_locate {base : Place} {p : Path} (h : fs.locate .create base p = .ok (place, node))
    (hplain : IsPlain node) (hnode : node ≠ none) : fs.read base p = .ok (held node) := by
  obtain _ | ⟨content, executable⟩ | _ := node <;> try contradiction
  simp [read, stat, locate_follow h, present, contentOf, held, Except.map]

/-- A file that is opened for writing holds what it held or nothing, and is written at its end. -/
theorem openAt_plain (h : fs.get? place = node) (hplain : IsPlain node) (mode : OpenMode) :
    ∃ f fs' content executable, fs.openAt mode (.ok (place, node)) = .ok (f, fs') ∧
      f.place = place ∧ fs'.get? place = some (.file content executable) ∧
      unpack content = (if mode = .append then held node else []) ∧
      (if f.append then content.size else f.offset) = content.size ∧ SameBut place fs fs' := by
  have hroot := ne_nil_of_isPlain (h ▸ hplain)
  obtain _ | ⟨content, executable⟩ | _ := node <;> try contradiction
  · refine ⟨_, _, ByteArray.empty, false, rfl, rfl, get?_set_self fs _ hroot, ?_, ?_,
      sameBut_set _ _ _⟩
    · cases mode <;> rfl
    · cases mode <;> rfl
  · cases mode with
    | truncate =>
      exact ⟨_, _, ByteArray.empty, executable, rfl, rfl, get?_set_self fs _ hroot, rfl, rfl,
        sameBut_set _ _ _⟩
    | append => exact ⟨_, _, content, executable, rfl, rfl, h, rfl, rfl, .refl _ _⟩

/-- Bytes written at the end of a file come after what it holds. -/
theorem writeTo_end {f : OpenFile} {content : ByteArray} {executable : Bool}
    (h : fs.get? f.place = some (.file content executable))
    (hend : (if f.append then content.size else f.offset) = content.size) (bytes : ByteArray) :
    (fs.writeTo f bytes).2.get? f.place = some (.file (content ++ bytes) executable) ∧
      SameBut f.place fs (fs.writeTo f bytes).2 := by
  have hplain : IsPlain (fs.get? f.place) := by
    rw [h]
    trivial
  have hroot := ne_nil_of_isPlain hplain
  unfold writeTo
  rw [h]
  dsimp only
  rw [hend]
  split
  · next hsize =>
    obtain rfl : bytes = ByteArray.empty := by simpa using hsize
    exact ⟨by simpa using h, .refl _ _⟩
  · refine ⟨?_, sameBut_set _ _ _⟩
    rw [get?_set_self _ _ hroot]
    simp [overwrite]

/-- Writing goes on after what has been written. -/
theorem writeTo_offset {f : OpenFile} {content : ByteArray} {executable : Bool}
    (h : fs.get? f.place = some (.file content executable))
    (hend : (if f.append then content.size else f.offset) = content.size) (bytes : ByteArray) :
    (fs.writeTo f bytes).1 = { f with offset := content.size + bytes.size } := by
  unfold writeTo
  rw [h]
  dsimp only
  rw [hend]

/-- Writing to an open file changes no other place, and leaves all ways open. -/
theorem writeTo_elsewhere (fs : FileSystem) (f : OpenFile) (bytes : ByteArray) :
    SameBut f.place fs (fs.writeTo f bytes).2 ∧ Leads fs (fs.writeTo f bytes).2 ∧
      (fs.writeTo f bytes).1.place = f.place ∧ (fs.writeTo f bytes).1.writable = f.writable := by
  unfold writeTo
  split
  · next content executable hfile =>
    dsimp only
    split
    · exact ⟨.refl _ _, .refl _, rfl, rfl⟩
    · have hplain : IsPlain (fs.get? f.place) := by
        rw [hfile]
        trivial
      have hroot := ne_nil_of_isPlain hplain
      exact ⟨sameBut_set _ _ _,
        leads_of_sameBut hplain (sameBut_set _ _ _) (get?_set_self _ _ hroot), rfl, rfl⟩
  · exact ⟨.refl _ _, .refl _, rfl, rfl⟩

@[simp] theorem stamps_writeTo (fs : FileSystem) (f : OpenFile) (bytes : ByteArray) :
    (fs.writeTo f bytes).2.stamps = fs.stamps := by
  unfold writeTo
  split
  · dsimp only
    split <;> rfl
  · rfl

theorem openAt_stamps {mode : OpenMode} {found : Except Errno (Place × Option Node)} {f : OpenFile}
    (h : fs.openAt mode found = .ok (f, fs')) : fs'.stamps = fs.stamps := by
  unfold openAt at h
  split at h <;> cases h <;> try rfl
  split <;> rfl

/-- What has no limit takes everything. -/
theorem Restraint.take_of_limit_eq_none {r : Restraint} (h : r.limit = none) (held : Nat)
    (bytes : Bytes) : r.take held bytes = (bytes, .ok ()) := by
  rw [take, h]

/-- What is taken without an error is taken as a whole. -/
theorem Restraint.take_of_ok {r : Restraint} {held : Nat} {bytes : Bytes}
    (h : (r.take held bytes).2 = .ok ()) : (r.take held bytes).1 = bytes := by
  unfold take at h ⊢
  split at h
  · rfl
  · split at h
    · next hfits => rw [if_pos hfits]
    · cases h

/-- What stays of a file when it is opened for writing. -/
def kept (mode : OpenMode) (node : Option Node) : Bytes := if mode = .append then held node else []

/-- What has come of writing bytes to a file that could be opened: so many of them as its place
takes are in the file, behind what stayed of it, and nothing else has changed. A device holds
nothing. -/
structure Wrote (restraint : Place → Restraint) (base : Place) (p : Path) (mode : OpenMode)
    (bytes : Bytes) (fs fs' : FileSystem) (result : Except Errno Unit) (place : Place)
    (node : Option Node) : Prop where
  located : fs.locate .create base p = .ok (place, node)
  result_eq : result = ((restraint place).take (kept mode node).length bytes).2
  same : SameBut place fs fs'
  stamps : fs'.stamps = fs.stamps
  file : IsPlain node → ∃ content executable,
    fs'.locate .create base p = .ok (place, some (.file content executable)) ∧
      unpack content = kept mode node ++ ((restraint place).take (kept mode node).length bytes).1
  device : ¬ IsPlain node → fs' = fs ∧ node ≠ some .dir

theorem openAt_place {mode : OpenMode} {f : OpenFile}
    (h : fs.openAt mode (.ok (place, node)) = .ok (f, fs')) : f.place = place := by
  rcases node with _ | ⟨content, executable⟩ | _ | target | _ | _ <;> cases h <;> rfl

/-- Files in which the writing to one has been cut short: it was opened, and its place took only the
first of the bytes. -/
def CutShort (restraint : Place → Restraint) (base : Place) (file : Path) (mode : OpenMode)
    (bytes : Bytes) (fs fs' : FileSystem) : Prop :=
  ∃ e place node, Wrote restraint base file mode bytes fs fs' (.error e) place node

section Writing

variable {restraint : Place → Restraint} {base : Place} {p : Path}

/-- Where a file can be made and the process may write, the bytes are written. -/
theorem writeFile_plain (h : fs.locate .create base p = .ok (place, node)) (hplain : IsPlain node)
    (hwritable : (restraint place).unwritable = none) (mode : OpenMode) (bytes : Bytes) :
    ∃ fs' result, fs.writeFile restraint base p mode bytes = (fs', result) ∧
      Wrote restraint base p mode bytes fs fs' result place node := by
  have hplace := get?_of_locate h
  obtain ⟨f, opened, content, executable, hopen, rfl, hfile, hcontent, hend, hopened⟩ :=
    openAt_plain hplace hplain mode
  have hsize : opened.sizeAt f.place = (kept mode node).length := by
    rw [sizeAt, hfile, kept, ← hcontent]
    simp [unpack]
  obtain ⟨hwritten, hsame⟩ := writeTo_end hfile hend
    (pack ((restraint f.place).take (kept mode node).length bytes).1)
  have hothers := hopened.trans hsame
  have hleads := leads_of_sameBut (hplace ▸ hplain) hothers hwritten
  refine ⟨_, _, ?_, h, rfl, hothers, (stamps_writeTo ..).trans (openAt_stamps hopen), fun _ => ?_,
    fun hnot => absurd hplain hnot⟩
  · simp [writeFile, openFile, h, hopen, hwritable, hsize]
  · refine ⟨_, executable, (hleads.locate (by simp) h).trans (by rw [hwritten]), ?_⟩
    simp [hcontent, kept]

/-- What is no file swallows all that is written. -/
theorem writeTo_of_not_file {f : OpenFile} (h : ¬ IsPlain (fs.get? f.place)) (bytes : ByteArray) :
    (fs.writeTo f bytes).2 = fs := by
  unfold writeTo
  split
  · next hfile =>
    rw [hfile] at h
    exact absurd trivial h
  · rfl

theorem held_of_not_plain (h : ¬ IsPlain node) : held node = [] := by
  unfold held
  split
  · exact absurd trivial h
  · rfl

/-- Nothing is done to what is no file when it is opened. -/
theorem openAt_of_not_plain {mode : OpenMode} {f : OpenFile} {opened : FileSystem}
    (h : ¬ IsPlain node) (ho : fs.openAt mode (.ok (place, node)) = .ok (f, opened)) :
    opened = fs ∧ node ≠ some .dir := by
  rcases node with _ | ⟨content, executable⟩ | _ | target | _ | _
  case none | some.file => exact absurd trivial h
  case some.dir => cases ho
  all_goals
    cases ho
    exact ⟨rfl, by simp⟩

/-- Writing to a file is refused before anything is done, or the file is opened and the bytes are
written. -/
theorem writeFile_cases (fs : FileSystem) (restraint : Place → Restraint) (base : Place) (p : Path)
    (mode : OpenMode) (bytes : Bytes) :
    (∃ e, fs.writeFile restraint base p mode bytes = (fs, .error e)) ∨
      ∃ fs' result place node, fs.writeFile restraint base p mode bytes = (fs', result) ∧
        Wrote restraint base p mode bytes fs fs' result place node := by
  rcases hl : fs.locate .create base p with e | ⟨place, node⟩
  · exact .inl ⟨e, by simp [writeFile, openFile, hl, openAt]⟩
  rcases ho : fs.openAt mode (.ok (place, node)) with e | ⟨f, opened⟩
  · exact .inl ⟨e, by simp [writeFile, openFile, hl, ho]⟩
  obtain rfl := openAt_place ho
  rcases hu : (restraint f.place).unwritable with _ | e
  · right
    by_cases hplain : IsPlain node
    · obtain ⟨fs', result, hwrite, hwrote⟩ := writeFile_plain hl hplain hu mode bytes
      exact ⟨fs', result, _, node, hwrite, hwrote⟩
    · obtain ⟨rfl, hdir⟩ := openAt_of_not_plain hplain ho
      have hplace := get?_of_locate hl
      have hkept : kept mode node = [] := by
        rw [kept, held_of_not_plain hplain, ite_self]
      have hsize : opened.sizeAt f.place = 0 := by
        rw [sizeAt, hplace]
        split
        · exact absurd trivial hplain
        · rfl
      refine ⟨opened, _, f.place, node, ?_, hl, rfl, .refl _ _, rfl, fun hyes => absurd hyes hplain,
        fun _ => ⟨rfl, hdir⟩⟩
      simp [writeFile, openFile, hl, ho, hu, hsize, writeTo_of_not_file (hplace ▸ hplain), hkept]
  · exact .inl ⟨e, by simp [writeFile, openFile, hl, ho, hu]⟩

end Writing

/-- What may be done at a place is not restrained. -/
def Restraint.IsFree (r : Restraint) : Prop := r = {}

end CommandShell.FileSystem
