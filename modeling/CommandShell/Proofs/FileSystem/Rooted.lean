import CommandShell.Proofs.FileSystem.PathText
import CommandShell.Proofs.FileSystem.Storage

/-!
# Paths from the root

A path that starts at the root leads to the same place from every directory. So does its text, since
a path is cut into the same names when it is written down and read again. A place that a path leads
to is named by such a path.

## Main statements

- `Path.ofText_text`: a path is named by its text.
- `FileSystem.locate_base`: a path from the root leads to the same place from every directory.
- `FileSystem.statText_text`: the text of a path from the root leads where the path leads.
-/

namespace CommandShell

namespace Path

/-- A text that can be a part of a path. -/
structure IsName (name : String) : Prop where
  part : isPart name = true
  slash : '/' ∉ name.toList

/-- A path that is cut into names. -/
def Sound (p : Path) : Prop := ∀ name ∈ p.parts, IsName name

theorem IsName.ne_empty {name : String} (h : IsName name) : name ≠ "" := by
  rintro rfl
  exact absurd h.part (by decide)

theorem Ordinary.isName {name : String} (h : Ordinary name) : IsName name :=
  ⟨by simp [isPart, h.ne_empty, h.ne_point], h.slash⟩

theorem slash_of_mem_partsAt {text name : String} (h : name ∈ Text.partsAt '/' text) :
    '/' ∉ name.toList := by
  have hcut (cs : List Char) : ∀ part ∈ Text.cutWhere (· == '/') cs, '/' ∉ part := by
    induction cs with
    | nil => simp [Text.cutWhere]
    | cons c cs ih =>
      obtain ⟨first, others, hcs⟩ := List.exists_cons_of_ne_nil (Text.cutWhere_ne_nil (· == '/') cs)
      rw [hcs] at ih
      rw [Text.cutWhere, hcs]
      split <;> grind
  obtain ⟨part, hpart, rfl⟩ := List.mem_map.mp h
  simpa using hcut _ part hpart

theorem sound_ofText (text : String) : (ofText text).Sound := by
  intro name hname
  obtain ⟨hmem, hpart⟩ := List.mem_filter.mp hname
  exact ⟨hpart, slash_of_mem_partsAt hmem⟩

theorem Sound.join {p q : Path} (hp : p.Sound) (hq : q.Sound) : (p.join q).Sound := by
  unfold Path.join
  split
  · exact hq
  · intro name hname
    exact (List.mem_append.mp hname).elim (hp name) (hq name)

/-- The text of a path from the root: its names with slashes between them, behind one slash or
two. -/
theorem toList_text {p : Path} (h : p.isAbsolute = true) :
    ∃ slashes, (slashes = [] ∨ slashes = ['/']) ∧
      p.text.toList = '/' :: slashes ++ ['/'].intercalate (p.parts.map String.toList) := by
  have hparts : ("/".intercalate p.parts).toList = ['/'].intercalate (p.parts.map String.toList) :=
    String.toList_intercalate
  obtain ⟨anchor, parts⟩ := p
  cases anchor with
  | relative => cases h
  | root => exact ⟨[], .inl rfl, by rw [text, String.toList_append, hparts]; rfl⟩
  | doubleRoot => exact ⟨['/'], .inr rfl, by rw [text, String.toList_append, hparts]; rfl⟩

/-- Names with slashes between them are cut into the names. -/
theorem cutWhere_intercalate {names : List String} (hne : names ≠ [])
    (h : ∀ name ∈ names, IsName name) :
    Text.cutWhere (· == '/') (['/'].intercalate (names.map String.toList)) =
      names.map String.toList := by
  induction names with
  | nil => exact absurd rfl hne
  | cons name rest ih =>
    have hname : Text.cutWhere (· == '/') name.toList = [name.toList] :=
      Text.cutWhere_of_not fun c hc => by
        have hslash := (h name List.mem_cons_self).slash
        grind
    cases rest with
    | nil => simpa using hname
    | cons second rest =>
      have hrest := ih (by simp) fun n hn => h n (List.mem_cons_of_mem _ hn)
      rw [List.map_cons, List.map_cons, List.intercalate_cons_cons, ← List.map_cons,
        List.append_assoc, List.singleton_append, Text.cutWhere_append (by simp), hname, hrest]
      rfl

/-- Names with slashes between them are the names of a path. -/
theorem partsOf_intercalate {names : List String} (h : ∀ name ∈ names, IsName name) :
    partsOf ("/".intercalate names) = names := by
  by_cases hne : names = []
  · subst hne
    decide
  · have hcut : Text.partsAt '/' ("/".intercalate names) = names := by
      rw [Text.partsAt, String.toList_intercalate]
      change (Text.cutWhere (· == '/') (['/'].intercalate (names.map String.toList))).map
          String.ofList = names
      rw [cutWhere_intercalate hne h, List.map_map]
      simp [Function.comp_def]
    rw [partsOf, hcut, List.filter_eq_self]
    exact fun name hname => (h name hname).part

theorem head?_intercalate {names : List String} (h : ∀ name ∈ names, IsName name) :
    ("/".intercalate names).toList.head? ≠ some '/' := by
  cases names with
  | nil => decide
  | cons name rest =>
    have hname := h name List.mem_cons_self
    obtain ⟨c, cs, hcs⟩ : ∃ c cs, name.toList = c :: cs :=
      List.exists_cons_of_ne_nil (by simpa using hname.ne_empty)
    have hc : c ≠ '/' := by
      rintro rfl
      exact hname.slash (by simp [hcs])
    cases rest <;> simp [String.toList_intercalate, hcs, hc]

/-- Where a path starts is told by the slashes in front of its text. -/
theorem anchorOf_slashes {text : String} (h : text.toList.head? ≠ some '/') :
    anchorOf text = .relative ∧ anchorOf ("/" ++ text) = .root ∧
      anchorOf ("//" ++ text) = .doubleRoot := by
  simp only [anchorOf, String.toList_append]
  generalize text.toList = cs at h
  rcases cs with _ | ⟨c, cs⟩
  · decide
  · have hc : c ≠ '/' := by simpa using h
    simp [hc]

theorem partsOf_slash_append (text : String) : partsOf ("/" ++ text) = partsOf text := by
  have hslash : "/" ++ text = String.ofList ('/' :: text.toList) := by simp
  rw [hslash, partsOf_slash, String.ofList_toList]

/-- A path that is cut into names is the path that its text names. -/
theorem ofText_text {p : Path} (h : p.Sound) : ofText p.text = p := by
  obtain ⟨anchor, parts⟩ := p
  have hparts : partsOf ("/".intercalate parts) = parts := partsOf_intercalate h
  obtain ⟨hrelative, hroot, hdouble⟩ := anchorOf_slashes (head?_intercalate h)
  cases anchor with
  | relative =>
    simp only [text]
    split
    · next hnone =>
      obtain rfl : parts = [] := List.isEmpty_iff.mp hnone
      decide
    · rw [ofText, hparts, hrelative]
  | root => rw [text, ofText, hroot, partsOf_slash_append, hparts]
  | doubleRoot =>
    rw [text, ofText, hdouble,
      show "//" = "/" ++ "/" by decide, String.append_assoc, partsOf_slash_append,
      partsOf_slash_append, hparts]

end Path

namespace FileSystem

variable {fs : FileSystem} {p : Path}

/-! ## Every directory is as good as another -/

section Base

variable (h : p.isAbsolute = true) (base base' : Place)
include h

/-- A path from the root leads to the same place from every directory. -/
theorem locate_base (purpose : Purpose) : fs.locate purpose base p = fs.locate purpose base' p := by
  simp [locate, h]

theorem stat_base : fs.stat base p = fs.stat base' p := by
  rw [stat, stat, locate_base h base base']

theorem test_base (q : Node → Bool) : fs.test base p q = fs.test base' p q := by
  rw [test, test, stat_base h base base']

theorem read_base : fs.read base p = fs.read base' p := by
  rw [read, read, stat_base h base base']

theorem writeFile_base (restraint : Place → Restraint) (mode : OpenMode) (bytes : Bytes) :
    fs.writeFile restraint base p mode bytes = fs.writeFile restraint base' p mode bytes := by
  rw [writeFile, writeFile, openFile, openFile, locate_base h base base']

theorem makeDir_base : fs.makeDir base p = fs.makeDir base' p := by
  rw [makeDir, makeDir, locate_base h base base']

theorem acceptDir_base (e : Errno) : fs.acceptDir base p e = fs.acceptDir base' p e := by
  rw [acceptDir, acceptDir, test_base h base base']

theorem makeDirs_base (depth : Nat) : fs.makeDirs base depth p = fs.makeDirs base' depth p := by
  induction depth generalizing p with
  | zero => simp only [makeDirs, makeDir_base h base base', acceptDir_base h base base']
  | succ depth ih =>
    have hparent := ih (p := p.parent) h
    simp only [makeDirs, makeDir_base h base base', acceptDir_base h base base', hparent]

end Base

theorem locateText_base {text : String} (h : isFromRoot text = true) (purpose : Purpose)
    (base base' : Place) : fs.locateText purpose base text = fs.locateText purpose base' text := by
  simp [locateText, h]

/-! ## Paths that are written down -/

theorem isFromRoot_text (h : p.isAbsolute = true) : isFromRoot p.text = true := by
  obtain ⟨slashes, -, htext⟩ := Path.toList_text h
  simp [isFromRoot, htext]

/-- The names in the text of a path are its parts. -/
theorem namesOf_text (h : p.isAbsolute = true) (hs : p.Sound) : namesOf p.text = p.parts := by
  obtain ⟨slashes, hslashes, htext⟩ := Path.toList_text h
  have hcut : (Text.partsAt '/' p.text).filter (· != "") =
      ((Text.cutWhere (· == '/') (['/'].intercalate (p.parts.map String.toList))).map
        String.ofList).filter (· != "") := by
    rw [Text.partsAt, htext]
    obtain rfl | rfl := hslashes <;> simp [Text.cutWhere]
  by_cases hne : p.parts = []
  · rw [hne] at hcut
    have hnone : (Text.partsAt '/' p.text).filter (· != "") = [] := hcut.trans (by decide)
    simp [namesOf, hnone, hne]
  · have hnames := Path.cutWhere_intercalate hne hs
    have hparts : (Text.partsAt '/' p.text).filter (· != "") = p.parts := by
      rw [hcut, hnames, List.map_map]
      simpa [Function.comp_def] using fun name hname => (hs name hname).ne_empty
    -- a slash at the end would leave an empty name behind it
    have hnever : [] ∉ p.parts.map String.toList := by
      intro hmem
      obtain ⟨name, hname, hnil⟩ := List.mem_map.mp hmem
      exact (hs name hname).ne_empty (by simpa using hnil)
    have hend : p.text.toList.getLast? ≠ some '/' := by
      rw [htext, List.getLast?_append]
      intro hlast
      rcases hwritten : (['/'].intercalate (p.parts.map String.toList)).getLast? with _ | c
      · rw [List.getLast?_eq_none_iff.mp hwritten] at hnames
        exact hnever (by simp [← hnames, Text.cutWhere])
      · obtain rfl : c = '/' := by simpa [hwritten] using hlast
        obtain ⟨front, hfront⟩ := List.getLast?_eq_some_iff.mp hwritten
        rw [hfront, Text.cutWhere_append (by simp)] at hnames
        exact hnever (by simp [← hnames, Text.cutWhere])
    simp [namesOf, hparts, hend]

/-- The text of a path from the root leads where the path leads, whatever directories they are
followed from. -/
theorem locateText_text (h : p.isAbsolute = true) (hs : p.Sound) (purpose : Purpose)
    (base base' : Place) : fs.locateText purpose base p.text = fs.locate purpose base' p := by
  have hne : p.text ≠ "" := by
    obtain ⟨slashes, -, htext⟩ := Path.toList_text h
    intro hnil
    simp [hnil] at htext
  simp [locateText, locate, hne, isFromRoot_text h, h, namesOf_text h hs]

theorem statText_text (h : p.isAbsolute = true) (hs : p.Sound) (base base' : Place) :
    fs.statText base p.text = fs.stat base' p := by
  rw [statText, stat, locateText_text h hs .follow base base']

/-! ## Places -/

theorem slash_of_mem_namesOf {text name : String} (h : name ∈ namesOf text) :
    '/' ∉ name.toList := by
  have hparts (name : String) (hname : name ∈ (Text.partsAt '/' text).filter (· != "")) :
      '/' ∉ name.toList :=
    Path.slash_of_mem_partsAt (List.mem_filter.mp hname).1
  unfold namesOf at h
  extract_lets names at h
  split at h
  · obtain hname | hname := List.mem_append.mp h
    · exact hparts name hname
    · simp_all
  · exact hparts name h

end FileSystem

end CommandShell
