import CommandShell.Proofs.FileSystem.PathText
import CommandShell.Proofs.FileSystem.Storage

/-!
# Following a path

A path that leads to a name leads on its way to the directory that holds the name. Empty names and
single points say nothing about where a path leads, as long as that is a directory.

## Main statements

- `FileSystem.walk_of_append`: a path passes through a directory on its way.
- `FileSystem.walk_append_of_dir`: from a directory on its way a path goes on.
- `FileSystem.test_child_of_size`: a name that is too long cannot be asked about.
- `FileSystem.walk_append`: a path to a name passes through a directory with that name.
- `FileSystem.walk_of_filter_eq`: empty names and single points do not matter on the way to a
  directory.
- `FileSystem.mem_names_iff`: the names in a directory are those under which something is there.
-/

namespace CommandShell.FileSystem

open CommandShell.Path (Ordinary)

variable {fs : FileSystem}

/-- Names are followed from a directory. -/
theorem get?_of_walk_cons {purpose : Purpose} {links : Nat} {start : Place} {name : String}
    {rest : List String} {r : Place × Option Node}
    (h : fs.walk purpose links start (name :: rest) = .ok r) : fs.get? start = some .dir := by
  rw [walk] at h
  split at h
  · cases h
  · assumption
  · cases h

/-- Behind a name that a file can have there is something only if the directory holds the name. -/
theorem get?_of_walk_singleton {links : Nat} {start place : Place} {name : String} {node : Node}
    (hname : Ordinary name) (h : fs.walk .follow links start [name] = .ok (place, some node)) :
    fs.get? (start ++ [name]) ≠ none := by
  intro hnone
  have hdir := get?_of_walk_cons h
  rw [walk, hdir] at h
  simp [hname.ne_empty, hname.ne_point, hname.ne_points, hnone] at h
  split at h
  · cases h
  · split at h <;> cases h

/-- A path leads on its way to a directory, from which the other names are followed. -/
theorem walk_of_append {links : Nat} {start : Place} {names rest : List String}
    {r : Place × Option Node} (hrest : rest ≠ [])
    (h : fs.walk .follow links start (names ++ rest) = .ok r) :
    ∃ directory left, fs.walk .follow links start names = .ok (directory, some .dir) ∧
      fs.walk .follow left directory rest = .ok r := by
  obtain ⟨last, others, rfl⟩ := List.exists_cons_of_ne_nil hrest
  have hmore (names : List String) : (names ++ last :: others).isEmpty = false := by simp
  generalize hpurpose : Purpose.follow = purpose at h ⊢
  fun_induction walk fs purpose links start names with
  | case1 links start =>
    subst hpurpose
    have hdir := get?_of_walk_cons h
    exact ⟨start, links, by rw [hdir], h⟩
  | case3 links start rest hdir ih =>
    rw [List.cons_append, walk, hdir] at h
    exact ih (by simpa using h)
  | case5 links start rest hdir hopen hempty ih =>
    rw [List.cons_append, walk, hdir] at h
    exact ih (by simpa [hopen] using h)
  | case6 links start rest hdir hopen hempty hpoint ih =>
    rw [List.cons_append, walk, hdir] at h
    exact ih (by simpa [hopen] using h)
  | case13 start first rest hdir hempty hopen hpoint hpoints hcreate hlength target hlink
      hlook links ih =>
    subst hpurpose
    rw [List.cons_append, walk, hdir] at h
    simp [hempty, hopen, hpoint, hpoints, hlength, hlink] at h
    exact ih (by simpa using h)
  | case14 links start first rest hdir hempty hopen hpoint hpoints hcreate hlength node'
      hlink hnode ih =>
    subst hpurpose
    rw [List.cons_append, walk, hdir] at h
    cases node' with
    | link target => exact absurd rfl (hlink target)
    | _ =>
      simp [hempty, hopen, hpoint, hpoints, hlength, hnode] at h
      exact ih h
  | _ =>
    subst hpurpose
    rw [List.cons_append, walk] at h
    grind

/-- Behind names that lead to a directory other names are followed from there. -/
theorem walk_append_of_dir {links : Nat} {start directory : Place} {names : List String}
    (h : fs.walk .follow links start names = .ok (directory, some .dir)) (rest : List String) :
    ∃ left, fs.walk .follow links start (names ++ rest) = fs.walk .follow left directory rest := by
  generalize hpurpose : Purpose.follow = purpose at h ⊢
  fun_induction walk fs purpose links start names with
  | case1 links start =>
    obtain ⟨rfl, -⟩ : start = directory ∧ fs.get? start = some .dir := by simpa using h
    exact ⟨links, rfl⟩
  | case3 links start others hdir ih =>
    rw [List.cons_append, walk, hdir]
    exact ih h
  | case5 links start others hdir hopen hempty ih =>
    rw [List.cons_append, walk, hdir]
    simpa [hopen] using ih h
  | case6 links start others hdir hopen hempty hpoint ih =>
    rw [List.cons_append, walk, hdir]
    simpa [hopen] using ih h
  | case13 start first others hdir hempty hopen hpoint hpoints hcreate hlength target hlink
      hlook links ih =>
    subst hpurpose
    rw [List.cons_append, walk, hdir]
    simpa [hempty, hopen, hpoint, hpoints, hlength, hlink] using ih h
  | case14 links start first others hdir hempty hopen hpoint hpoints hcreate hlength node
      hlink hnode ih =>
    subst hpurpose
    rw [List.cons_append, walk, hdir]
    cases node with
    | link target => exact absurd rfl (hlink target)
    | _ => simpa [hempty, hopen, hpoint, hpoints, hlength, hnode] using ih h
  | _ => simp_all

/-- A name that is too long cannot be asked about in a directory that may be searched. -/
theorem test_child_of_size {base place : Place} {p : Path} {name : String} (hname : Ordinary name)
    (hlong : maxName < Path.size name) (hnull : Path.hasNull (p.child name).text = false)
    (h : fs.stat base p = .ok (place, .dir)) (hopen : place ∉ fs.closed) (q : Node → Bool) :
    fs.test base (p.child name) q = .error .nameTooLong := by
  have hlocate : fs.locate .follow base (p.child name) = .error .nameTooLong := by
    rw [locate]
    split
    · rfl
    · have hthere := stat_eq_iff.mp h
      rw [locate] at hthere
      split at hthere
      · cases hthere
      · obtain ⟨left, hwalk⟩ := walk_append_of_dir hthere [name]
        have hdir : fs.get? place = some .dir := get?_of_locate (stat_eq_iff.mp h)
        change fs.walk .follow maxLinks (if p.isAbsolute then [] else base) (p.parts ++ [name]) = _
        rw [hwalk, walk, hdir]
        simp [hname.ne_empty, hname.ne_point, hname.ne_points, hopen,
          show maxName < (Utf8.encode name).length from hlong]
  rw [test, hnull, stat, hlocate]
  rfl

/-- A path that leads to a name leads on its way to the directory that holds it. -/
theorem walk_append {links : Nat} {start place : Place} {names : List String} {name : String}
    {node : Node} (hname : Ordinary name)
    (h : fs.walk .follow links start (names ++ [name]) = .ok (place, some node)) :
    ∃ directory, fs.walk .follow links start names = .ok (directory, some .dir) ∧
      fs.get? (directory ++ [name]) ≠ none := by
  obtain ⟨directory, left, hnames, hlast⟩ := walk_of_append (by simp) h
  exact ⟨directory, hnames, get?_of_walk_singleton hname hlast⟩

/-- A name stands in a directory just if something is there under it. -/
theorem mem_names_iff {directory : Place} {name : String} :
    name ∈ fs.names directory ↔ fs.get? (directory ++ [name]) ≠ none := by
  have hends (place : Place) :
      (if place.dropLast = directory then place.getLast? else none) = some name ↔
        place = directory ++ [name] := by
    constructor
    · intro h
      split at h
      · next hdir =>
        obtain ⟨front, rfl⟩ := List.getLast?_eq_some_iff.mp h
        rw [← hdir, List.dropLast_concat]
      · cases h
    · rintro rfl
      simp
  simp only [names, List.mem_filterMap, hends, get?, List.append_eq_nil_iff, List.cons_ne_self,
    and_false, if_false]
  simp

/-! ### Names that say nothing about where a path leads -/

/-- In a directory that is not closed such names are passed over. -/
theorem walk_skip {purpose : Purpose} {links : Nat} {start : Place}
    (hdir : fs.get? start = some .dir) (hopen : start ∉ fs.closed) {skipped : List String}
    (h : ∀ name ∈ skipped, ¬ Path.isPart name = true) (names : List String) :
    fs.walk purpose links start (skipped ++ names) = fs.walk purpose links start names := by
  induction skipped with
  | nil => rfl
  | cons name skipped ih =>
    have hname : name = "." ∨ name = "" := by
      have := h name (by simp)
      simp [Path.isPart] at this
      grind
    rw [List.cons_append, walk, hdir]
    obtain rfl | rfl := hname <;> simp [hopen, ih fun n hn => h n (by simp [hn])]

/-- Names that differ by such names only lead to the same directory, if that is not closed. -/
theorem walk_of_filter_eq {links : Nat} {start place : Place} {names names' : List String}
    (heq : names'.filter Path.isPart = names.filter Path.isPart) (hplace : place ∉ fs.closed)
    (h : fs.walk .follow links start names = .ok (place, some .dir)) :
    fs.walk .follow links start names' = .ok (place, some .dir) := by
  generalize hpurpose : Purpose.follow = purpose at h ⊢
  fun_induction walk fs purpose links start names generalizing names' with
  | case1 links start =>
    obtain ⟨rfl, hdir⟩ : start = place ∧ fs.get? start = some .dir := by simpa using h
    rw [← List.append_nil names', walk_skip hdir hplace (List.filter_eq_nil_iff.mp heq), walk]
    exact h
  | case3 links start rest hdir ih => exact ih (by rw [heq, List.filter_cons_of_neg (by decide)]) h
  | case5 links start rest hdir hopen hempty ih =>
    exact ih (by rw [heq, List.filter_cons_of_neg (by decide)]) h
  | case6 links start rest hdir hopen hempty hpoint ih =>
    rw [List.filter_cons_of_pos (by decide)] at heq
    obtain ⟨skipped, rest', rfl, hnot, -, hrest⟩ := List.filter_eq_cons_iff.mp heq
    rw [walk_skip hdir hopen hnot, walk, hdir]
    simpa [hopen] using ih hrest h
  | case13 start first rest hdir hempty hopen hpoint hpoints hcreate hlength target hlink
      hlook links ih =>
    subst hpurpose
    have hfirst : Path.isPart first = true := by simp [Path.isPart, hempty, hpoint]
    rw [List.filter_cons_of_pos hfirst] at heq
    obtain ⟨skipped, rest', rfl, hnot, -, hrest⟩ := List.filter_eq_cons_iff.mp heq
    have hfilter : (namesOf target ++ rest').filter Path.isPart =
        (namesOf target ++ rest).filter Path.isPart := by
      simp [hrest]
    rw [walk_skip hdir hopen hnot, walk, hdir]
    simpa [hempty, hopen, hpoint, hpoints, hlength, hlink] using ih hfilter h
  | case14 links start first rest hdir hempty hopen hpoint hpoints hcreate hlength node'
      hlink hnode ih =>
    subst hpurpose
    have hfirst : Path.isPart first = true := by simp [Path.isPart, hempty, hpoint]
    rw [List.filter_cons_of_pos hfirst] at heq
    obtain ⟨skipped, rest', rfl, hnot, -, hrest⟩ := List.filter_eq_cons_iff.mp heq
    rw [walk_skip hdir hopen hnot, walk, hdir]
    cases node' with
    | link target => exact absurd rfl (hlink target)
    | _ => simpa [hempty, hopen, hpoint, hpoints, hlength, hnode] using ih hrest h
  | _ => cases h

end CommandShell.FileSystem
