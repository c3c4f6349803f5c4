import CommandShell.Proofs.FileSystem.PathText
import CommandShell.Proofs.FileSystem.Walking

/-!
# Directories that are made for a file

Before a file is stored the directories on its way are made. If something can be read where the path
leads, they are all there and nothing is made; and if they could not be made, nothing can be read
there afterwards.

## Main statements

- `FileSystem.makeDirs_of_locate`: what is made for a file whose place is there.
- `FileSystem.not_dir_of_makeDirs_error`: what has not been made.
-/

namespace CommandShell

/-! ## Texts of paths and their parents -/

namespace Path

theorem mem_intercalate {c : Char} (hc : c ≠ '/') (names : List String) :
    c ∈ ("/".intercalate names).toList ↔ ∃ name ∈ names, c ∈ name.toList := by
  induction names with
  | nil => simp
  | cons name rest ih =>
    by_cases hrest : rest = []
    · simp [hrest]
    · rw [String.intercalate_cons_of_ne_nil hrest, String.toList_append, String.toList_append,
        List.mem_append, List.mem_append, ih]
      simp [hc]

/-- A path holds a null character if one of its names does. -/
theorem hasNull_text (p : Path) : hasNull p.text = p.parts.any hasNull := by
  have hnames : Char.ofNat 0 ∈ ("/".intercalate p.parts).toList ↔ p.parts.any hasNull = true := by
    rw [mem_intercalate (by decide)]
    simp [hasNull]
  rw [Bool.eq_iff_iff, ← hnames]
  unfold hasNull text
  split
  · split
    · next hempty => simp [List.isEmpty_iff.mp hempty]
    · simp
  · simp
  · simp

theorem mem_of_mem_parent {p : Path} {name : String} (h : name ∈ p.parent.parts) :
    name ∈ p.parts :=
  (List.dropLast_sublist p.parts).mem h

theorem hasNull_parent {p : Path} (h : hasNull p.text = false) : hasNull p.parent.text = false := by
  rw [hasNull_text] at h ⊢
  rw [List.any_eq_false] at h ⊢
  exact fun name hname => h name (mem_of_mem_parent hname)

theorem hasNull_child {p : Path} {name : String} (hp : hasNull p.text = false)
    (hname : hasNull name = false) : hasNull (p.child name).text = false := by
  rw [hasNull_text] at hp ⊢
  rw [child, List.any_append, hp]
  simp [hname]

theorem parent_of_parts_nil {p : Path} (h : p.parts = []) : p.parent = p := by
  cases p
  simp_all [parent]

/-- The text of the path above is no longer, unless it is a single point. -/
theorem size_text_parent (p : Path) : size p.parent.text ≤ max (size p.text) 1 := by
  obtain ⟨anchor, parts⟩ := p
  have hparts : size ("/".intercalate parts.dropLast) ≤ size ("/".intercalate parts) := by
    rcases List.eq_nil_or_concat parts with rfl | ⟨names, name, rfl⟩
    · exact Nat.le_refl _
    · rw [List.concat_eq_append, List.dropLast_concat]
      by_cases hnames : names = []
      · simp [hnames, size, Utf8.encode]
      · rw [String.intercalate_append_of_ne_nil hnames (by simp), size_append, size_append]
        omega
  have hpoint : size "." = 1 := by decide
  cases anchor with
  | relative =>
    by_cases hnone : parts.dropLast = []
    · rw [show (parent ⟨.relative, parts⟩).text = "." by simp [parent, text, hnone], hpoint]
      exact Nat.le_max_right ..
    · have hsome : parts ≠ [] := by
        rintro rfl
        exact hnone rfl
      simp only [parent, text, List.isEmpty_iff, hnone, hsome, if_false]
      omega
  | root | doubleRoot =>
    simp only [parent, text, size_append]
    omega

end Path

namespace FileSystem

variable {fs fs' : FileSystem} {base place : Place} {p : Path} {node : Node}

/-! ## What a path leads to -/

/-- What is there behind all links has something in front of the last one. -/
theorem walk_look {links : Nat} {start : Place} {names : List String}
    (h : fs.walk .follow links start names = .ok (place, some node)) :
    ∃ place' node', fs.walk .look links start names = .ok (place', some node') := by
  generalize hpurpose : Purpose.follow = purpose at h
  fun_induction walk fs purpose links start names with
  | case1 links start =>
    obtain ⟨-, hnode⟩ : start = place ∧ fs.get? start = some node := by simpa using h
    exact ⟨start, node, by rw [walk, hnode]⟩
  | case3 links start rest hdir ih =>
    rw [walk, hdir]
    simpa using ih h
  | case5 links start rest hdir hopen hempty ih
  | case6 links start rest hdir hopen hempty hpoint ih =>
    rw [walk, hdir]
    simpa [hopen] using ih h
  | case13 start name rest hdir hempty hopen hpoint hpoints hcreate hlength target hlink
      hlook links ih =>
    rw [walk, hdir]
    by_cases hlast : rest.isEmpty
    · exact ⟨start ++ [name], .link target, by simp [hempty, hopen, hpoint, hpoints, hlength,
        hlink, hlast]⟩
    · simpa [hempty, hopen, hpoint, hpoints, hlength, hlink, hlast] using ih h
  | case14 links start name rest hdir hempty hopen hpoint hpoints hcreate hlength node'
      hlink hnode ih =>
    rw [walk, hdir]
    cases node' with
    | link target => exact absurd rfl (hlink target)
    | _ => simpa [hempty, hopen, hpoint, hpoints, hlength, hnode] using ih h
  | _ => simp_all

/-- The path above a place where something stands or can be made leads to a directory, from which
the last name is followed. -/
theorem walk_of_parent {r : Place × Option Node} (h : fs.locate .follow base p = .ok r)
    (hparts : p.parts ≠ []) : ∃ directory left name, fs.stat base p.parent = .ok (directory, .dir) ∧
      name ∈ p.parts ∧ fs.walk .follow left directory [name] = .ok r := by
  obtain ⟨names, name, hnames⟩ := (List.eq_nil_or_concat p.parts).resolve_left hparts
  unfold locate at h
  split at h
  · cases h
  · next hsize =>
    have hparent : p.parent.parts = names := by simp [Path.parent, hnames]
    have hshort : ¬ maxPath < Path.size p.parent.text := by
      have hle := Path.size_text_parent p
      have hmax : maxPath = 4095 := rfl
      simp only [Path.size] at hle ⊢
      omega
    rw [hnames, List.concat_eq_append] at h
    obtain ⟨directory, left, hwalk, hlast⟩ := walk_of_append (by simp) h
    refine ⟨directory, left, name, stat_eq_iff.mpr ?_, by simp [hnames], hlast⟩
    rw [locate, if_neg hshort, hparent]
    exact hwalk

theorem stat_parent {r : Place × Option Node} (h : fs.locate .follow base p = .ok r)
    (hparts : p.parts ≠ []) : ∃ directory, fs.stat base p.parent = .ok (directory, .dir) := by
  obtain ⟨directory, -, -, hparent, -⟩ := walk_of_parent h hparts
  exact ⟨directory, hparent⟩

/-- Only of what a path leads to a content is read, and not of a directory. -/
theorem locate_of_read {content : Bytes} (h : fs.read base p = .ok content) :
    ∃ place node, node ≠ .dir ∧ fs.locate .follow base p = .ok (place, some node) := by
  unfold read at h
  split at h
  · cases h
  · next place node hstat =>
    refine ⟨place, node, ?_, stat_eq_iff.mp hstat⟩
    rintro rfl
    cases h

/-! ## Making directories -/

/-- Where something stands no directory is made. -/
theorem makeDir_of_stat (h : fs.stat base p = .ok (place, node)) :
    fs.makeDir base p = .error .alreadyExists := by
  have hlocate := stat_eq_iff.mp h
  unfold locate at hlocate
  split at hlocate
  · cases hlocate
  · next hsize =>
    obtain ⟨place', node', hlook⟩ := walk_look hlocate
    simp [makeDir, locate, hsize, hlook]

theorem acceptDir_of_dir (hnull : Path.hasNull p.text = false)
    (h : fs.stat base p = .ok (place, .dir)) (e : Errno) : fs.acceptDir base p e = .ok () := by
  simp [acceptDir, test, hnull, h, isDirNode]

theorem makeDirs_of_stat (h : fs.stat base p = .ok (place, node)) (depth : Nat) :
    fs.makeDirs base depth p = (fs, fs.acceptDir base p .alreadyExists) := by
  cases depth <;> simp [makeDirs, makeDir_of_stat h]

/-- Where something can be read no directory is made on the way. -/
theorem makeDirs_of_read {content : Bytes} (h : fs.read base p = .ok content) (depth : Nat) :
    (fs.makeDirs base depth p.parent).1 = fs := by
  obtain ⟨place, node, -, hlocate⟩ := locate_of_read h
  by_cases hparts : p.parts = []
  · rw [Path.parent_of_parts_nil hparts, makeDirs_of_stat (stat_eq_iff.mpr hlocate)]
  · obtain ⟨directory, hparent⟩ := stat_parent hlocate hparts
    rw [makeDirs_of_stat hparent]

/-- Nothing is made for a file whose place is there. -/
theorem makeDirs_of_locate {r : Place × Option Node} (hparts : p.parts ≠ [])
    (hnull : Path.hasNull p.parent.text = false) (h : fs.locate .follow base p = .ok r)
    (depth : Nat) : fs.makeDirs base depth p.parent = (fs, .ok ()) := by
  obtain ⟨directory, hparent⟩ := stat_parent h hparts
  rw [makeDirs_of_stat hparent, acceptDir_of_dir hnull hparent]

/-- A single directory that could not be made leaves everything as it was, and is not there. -/
theorem makeDirs_zero_error {e : Errno} (h : fs.makeDirs base 0 p = (fs', .error e)) :
    fs' = fs ∧ (Path.hasNull p.text = false → ∀ place, fs.stat base p ≠ .ok (place, .dir)) := by
  have hrefused : fs' = fs ∧ ∃ e', fs.makeDir base p = .error e' ∧
      (e' = .notFound ∨ fs.acceptDir base p e' = .error e) := by
    unfold makeDirs at h
    split at h
    · cases h
    · next hmade =>
      obtain ⟨rfl, -⟩ := Prod.mk.inj h
      exact ⟨rfl, _, hmade, .inl rfl⟩
    · next hmade =>
      obtain ⟨rfl, haccept⟩ := Prod.mk.inj h
      exact ⟨rfl, _, hmade, .inr haccept⟩
  obtain ⟨hsame, e', hmade, hcases⟩ := hrefused
  refine ⟨hsame, fun hnull place hdir => ?_⟩
  obtain rfl : Errno.alreadyExists = e' := by simpa [makeDir_of_stat hdir] using hmade
  obtain hnotFound | haccept := hcases
  · cases hnotFound
  · rw [acceptDir_of_dir hnull hdir] at haccept
    cases haccept

/-- Making directories fails at the last one, at those above, or at the last one after those
above. -/
theorem makeDirs_succ_error {depth : Nat} {e : Errno}
    (h : fs.makeDirs base (depth + 1) p = (fs', .error e)) :
    fs.makeDirs base 0 p = (fs', .error e) ∨ fs.makeDirs base depth p.parent = (fs', .error e) ∨
      ∃ made, FileSystem.makeDirs made base 0 p = (fs', .error e) := by
  unfold makeDirs at h
  split at h
  · cases h
  · split at h
    · next hparents => exact .inr (.inl (hparents.trans h))
    · next made _ => exact .inr (.inr ⟨made, h⟩)
  · next hother hmade =>
    left
    rw [makeDirs, hmade]
    split
    · next hok => cases hok
    · next heq =>
      cases heq
      exact absurd rfl hother
    · next heq =>
      cases heq
      exact h

/-- A directory that could not be made is not there afterwards. -/
theorem not_dir_of_makeDirs_error {depth : Nat} {e : Errno} (hnull : Path.hasNull p.text = false)
    (h : fs.makeDirs base depth p = (fs', .error e)) (place : Place) :
      fs'.stat base p ≠ .ok (place, .dir) := by
  have hlast {fs : FileSystem} {p : Path} (hnull : Path.hasNull p.text = false)
      (h : fs.makeDirs base 0 p = (fs', .error e)) (place : Place) :
        fs'.stat base p ≠ .ok (place, .dir) := by
    obtain ⟨rfl, hnot⟩ := makeDirs_zero_error h
    exact hnot hnull place
  induction depth generalizing p place with
  | zero => exact hlast hnull h place
  | succ depth ih =>
    obtain hfirst | habove | ⟨made, hafter⟩ := makeDirs_succ_error h
    · exact hlast hnull hfirst place
    · -- without the directory above there is none here
      intro hdir
      have hnull' := Path.hasNull_parent hnull
      by_cases hparts : p.parts = []
      · exact ih hnull' habove place ((Path.parent_of_parts_nil hparts).symm ▸ hdir)
      · obtain ⟨directory, hparent⟩ := stat_parent (stat_eq_iff.mp hdir) hparts
        exact ih hnull' habove directory hparent
    · exact hlast hnull hafter place

end FileSystem

end CommandShell
