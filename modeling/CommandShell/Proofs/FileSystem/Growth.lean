import CommandShell.Proofs.FileSystem.Making

/-!
# Directories on the way

Where a path leads without a link behind it, nothing but directories stands above. Making the
missing directories for a file fills places that were empty, and takes nothing away from the ways
that were there. In a directory that has been made there is nothing to be read, unless the path
climbs out of it again.

## Main statements

- `FileSystem.direct_of_stat`: a directory that a path leads to stands below directories alone.
- `FileSystem.grown_makeDirs`: what making directories with their parents changes.
- `FileSystem.read_of_made`: what has been made holds no file.
-/

namespace CommandShell

/-- The path is left when names are taken off the end of another one: none, or as many as one
likes. -/
inductive Path.Heads : Path → Path → Prop where
  | refl (p : Path) : Heads p p
  | parent {q p : Path} (h : Heads q p.parent) : Heads q p

namespace FileSystem

variable {fs fs' fs'' : FileSystem} {place : Place}

/-! ## Places without links on the way -/

/-- A place that stands, like every place above it, for a directory and not for a link to one. -/
def Direct (fs : FileSystem) (place : Place) : Prop := ∀ n, fs.get? (place.take n) = some .dir

theorem direct_nil (fs : FileSystem) : Direct fs [] := by
  intro n
  simp [FileSystem.get?]

theorem Direct.dropLast (h : Direct fs place) : Direct fs place.dropLast := by
  intro n
  rw [List.dropLast_eq_take, List.take_take]
  exact h _

theorem Direct.concat (h : Direct fs place) {name : String}
    (hdir : fs.get? (place ++ [name]) = some .dir) : Direct fs (place ++ [name]) := by
  intro n
  by_cases hn : n ≤ place.length
  · rw [List.take_append_of_le_length hn]
    exact h n
  · rwa [List.take_of_length_le (by grind)]

/-- A directory that names lead to stands below directories alone, if the one does where they are
followed from. -/
theorem direct_of_walk {purpose : Purpose} {links : Nat} {start : Place} {names : List String}
    (hstart : fs.get? start = some .dir → Direct fs start)
    (h : fs.walk purpose links start names = .ok (place, some .dir)) : Direct fs place := by
  fun_induction walk fs purpose links start names with
  | case1 links start =>
    obtain ⟨rfl, hdir⟩ : start = place ∧ fs.get? start = some .dir := by simpa using h
    exact hstart hdir
  | case3 links start rest hdir ih | case5 links start rest hdir hopen hempty ih =>
    exact ih hstart h
  | case6 links start rest hdir hopen hempty hpoint ih =>
    exact ih (fun _ => (hstart hdir).dropLast) h
  | case13 start name rest hdir hempty hopen hpoint hpoints hcreate hlength target hlink
      hlook links ih =>
    refine ih (fun _ => ?_) h
    by_cases hroot : isFromRoot target
    · simpa [hroot] using direct_nil fs
    · simpa [hroot] using hstart hdir
  | case14 links start name rest hdir hempty hopen hpoint hpoints hcreate hlength node
      hlink hnode ih =>
    exact ih (fun hnew => (hstart hdir).concat hnew) h
  | _ => simp at h

theorem direct_of_stat {base : Place} {p : Path} (hbase : fs.get? base = some .dir → Direct fs base)
    (h : fs.stat base p = .ok (place, .dir)) : Direct fs place := by
  have hlocate := stat_eq_iff.mp h
  unfold locate at hlocate
  split at hlocate
  · cases hlocate
  · refine direct_of_walk (fun hdir => ?_) hlocate
    split at hdir <;> split <;> first | exact direct_nil fs | exact hbase hdir

/-! ## Making directories -/

/-- A file system in which some empty places have been filled, and no other directory is closed. -/
structure Extends (fs fs' : FileSystem) : Prop where
  kept : ∀ place node, fs.get? place = some node → fs'.get? place = some node
  closed : fs'.closed = fs.closed

/-- Where something could be made or stands, there is a directory once one has been made. -/
theorem Extends.walk (hext : Extends fs fs') {purpose : Purpose} {links : Nat} {start : Place}
    {names : List String} {node : Option Node} (hnew : fs'.get? place = some .dir)
    (h : fs.walk purpose links start names = .ok (place, node)) :
    fs'.walk .follow links start names = .ok (place, some .dir) := by
  fun_induction FileSystem.walk fs purpose links start names with
  | case1 links start =>
    obtain ⟨rfl, -⟩ : start = place ∧ fs.get? start = node := by simpa using h
    rw [FileSystem.walk, hnew]
  | case3 links start rest hdir ih =>
    rw [FileSystem.walk, hext.kept _ _ hdir, hext.closed]
    simpa using ih h
  | case5 links start rest hdir hopen hempty ih
  | case6 links start rest hdir hopen hempty hpoint ih =>
    rw [FileSystem.walk, hext.kept _ _ hdir, hext.closed]
    simpa [hopen] using ih h
  | case9 links start name rest hdir hempty hopen hpoint hpoints hcreate hlength hnone hlast =>
    obtain ⟨rfl, -⟩ : start ++ [name] = place ∧ none = node := by simpa using h
    obtain rfl := List.isEmpty_iff.mp hlast
    rw [FileSystem.walk, hext.kept _ _ hdir, hext.closed]
    simp [hempty, hopen, hpoint, hpoints, hlength, hnew, FileSystem.walk]
  | case11 links start name rest hdir hempty hopen hpoint hpoints hcreate hlength target
      hlink hlook =>
    obtain ⟨rfl, -⟩ : start ++ [name] = place ∧ some (.link target) = node := by simpa using h
    exact absurd (hnew.symm.trans (hext.kept _ _ hlink)) (by simp)
  | case13 start name rest hdir hempty hopen hpoint hpoints hcreate hlength target hlink
      hlook links ih =>
    rw [FileSystem.walk, hext.kept _ _ hdir, hext.closed]
    simpa [hempty, hopen, hpoint, hpoints, hlength, hext.kept _ _ hlink] using ih h
  | case14 links start name rest hdir hempty hopen hpoint hpoints hcreate hlength node'
      hlink hnode ih =>
    rw [FileSystem.walk, hext.kept _ _ hdir, hext.closed]
    cases node' with
    | link target => exact absurd rfl (hlink target)
    | _ => simpa [hempty, hopen, hpoint, hpoints, hlength, hext.kept _ _ hnode] using ih h
  | _ => cases h

theorem Extends.stat (hext : Extends fs fs') {purpose : Purpose} {base : Place} {p : Path}
    {node : Option Node} (hnew : fs'.get? place = some .dir)
    (h : fs.locate purpose base p = .ok (place, node)) : fs'.stat base p = .ok (place, .dir) := by
  unfold locate at h
  split at h
  · cases h
  · next hlength =>
    rw [stat_eq_iff, FileSystem.locate, if_neg hlength, hext.walk hnew h]

/-- A file system in which directories have been made for a path: whatever else is there than before
is a directory that stands where there was nothing, and the path or a path above it leads there. -/
structure Grown (base : Place) (p : Path) (fs fs' : FileSystem) : Prop where
  places : ∀ place, fs'.get? place = fs.get? place ∨
    fs.get? place = none ∧ fs'.get? place = some .dir ∧
      ∃ q, Path.Heads q p ∧ fs'.stat base q = .ok (place, .dir)
  stamps : fs'.stamps = fs.stamps
  closed : fs'.closed = fs.closed

namespace Grown

variable {base : Place} {p q : Path}

theorem refl (fs : FileSystem) : Grown base p fs fs := ⟨fun _ => .inl rfl, rfl, rfl⟩

theorem extended (h : Grown base p fs fs') : Extends fs fs' := by
  refine ⟨fun place node hnode => ?_, h.closed⟩
  obtain hsame | ⟨hnone, -⟩ := h.places place
  · exact hsame.trans hnode
  · exact absurd (hnone.symm.trans hnode) (by simp)

theorem trans (h : Grown base p fs fs') (g : Grown base p fs' fs'') : Grown base p fs fs'' := by
  refine ⟨fun place => ?_, g.stamps.trans h.stamps, g.closed.trans h.closed⟩
  obtain hsame | ⟨hnone, hdir, q, hq, hstat⟩ := h.places place
  · exact hsame ▸ g.places place
  · have hkept : fs''.get? place = some .dir := g.extended.kept _ _ hdir
    exact .inr ⟨hnone, hkept, q, hq, g.extended.stat hkept (stat_eq_iff.mp hstat)⟩

/-- What is made for a path above is made for the path. -/
theorem of_parent (h : Grown base p.parent fs fs') : Grown base p fs fs' := by
  refine ⟨fun place => (h.places place).imp_right ?_, h.stamps, h.closed⟩
  rintro ⟨hnone, hdir, q, hq, hstat⟩
  exact ⟨hnone, hdir, q, .parent hq, hstat⟩

end Grown

/-- A directory that is made stands where nothing stood, and the path leads to it. -/
theorem makeDir_eq_ok {base : Place} {p : Path} (h : fs.makeDir base p = .ok fs') : ∃ place,
    fs' = fs.set place .dir ∧ fs.get? place = none ∧ fs'.stat base p = .ok (place, .dir) := by
  unfold makeDir at h
  split at h <;> cases h
  next place hlocate =>
  have hnone := get?_of_locate hlocate
  have hroot : place ≠ [] := by
    rintro rfl
    simp [get?] at hnone
  have hext : Extends fs (fs.set place .dir) := by
    refine ⟨fun other node hnode => ?_, rfl⟩
    by_cases heq : other = place
    · exact absurd (hnone.symm.trans (heq ▸ hnode)) (by simp)
    · exact (get?_set_of_ne fs .dir heq).trans hnode
  exact ⟨place, rfl, hnone, hext.stat (get?_set_self fs .dir hroot) hlocate⟩

theorem grown_makeDir {base : Place} {p : Path} (h : fs.makeDir base p = .ok fs') :
    Grown base p fs fs' := by
  obtain ⟨place, rfl, hnone, hstat⟩ := makeDir_eq_ok h
  refine ⟨fun other => ?_, rfl, rfl⟩
  by_cases heq : other = place
  · subst heq
    exact .inr ⟨hnone, get?_of_locate (stat_eq_iff.mp hstat), p, .refl p, hstat⟩
  · exact .inl (get?_set_of_ne fs .dir heq)

/-- Making a directory with its parents makes nothing but these. -/
theorem grown_makeDirs {base : Place} {depth : Nat} {p : Path} {result : Except Errno Unit}
    (h : fs.makeDirs base depth p = (fs', result)) : Grown base p fs fs' := by
  induction depth generalizing p fs' result with
  | zero =>
    unfold makeDirs at h
    split at h <;> obtain ⟨rfl, -⟩ := Prod.mk.inj h
    · next hmade => exact grown_makeDir hmade
    · exact .refl fs
    · exact .refl fs
  | succ depth ih =>
    unfold makeDirs at h
    split at h
    · next hmade =>
      obtain ⟨rfl, -⟩ := Prod.mk.inj h
      exact grown_makeDir hmade
    · split at h <;> next habove =>
        have hgrown := (ih habove).of_parent
        first
        | split at h <;> obtain ⟨rfl, -⟩ := Prod.mk.inj h
          · next hmade => exact hgrown.trans (grown_makeDir hmade)
          · exact hgrown
          · exact hgrown
        | obtain ⟨rfl, -⟩ := Prod.mk.inj h
          exact hgrown
    · obtain ⟨rfl, -⟩ := Prod.mk.inj h
      exact .refl fs

/-! ## What has been made is empty -/

/-- Nothing stands below a place where nothing stands. -/
def Grounded (fs : FileSystem) : Prop :=
  ∀ place name, fs.get? place = none → fs.get? (place ++ [name]) = none

theorem fresh_of_makeDir {base : Place} {p : Path} {node : Node} (hext : Extends fs fs')
    (hmade : fs'.makeDir base p = .ok fs'') (h : fs''.stat base p = .ok (place, node)) :
    fs.get? place = none ∧ node = .dir := by
  obtain ⟨place', -, hnone, hstat⟩ := makeDir_eq_ok hmade
  obtain ⟨rfl, rfl⟩ : place' = place ∧ Node.dir = node := by simpa using hstat.symm.trans h
  refine ⟨Option.eq_none_iff_forall_ne_some.mpr fun node hnode => ?_, rfl⟩
  exact absurd (hnone.symm.trans (hext.kept _ _ hnode)) (by simp)

section Fresh

variable {base : Place} {p q : Path} (hfs : fs.Grounded) (hclimbs : ".." ∉ p.parts)
include hfs hclimbs

/-- Below a directory that has been made there are only directories that have been made. -/
theorem fresh_of_parent {node : Node} (hgrown : Grown base q fs fs')
    (habove : ∀ directory node, fs'.stat base p.parent = .ok (directory, node) →
      fs.get? directory = none ∧ node = .dir)
    (h : fs'.stat base p = .ok (place, node)) : fs.get? place = none ∧ node = .dir := by
  by_cases hparts : p.parts = []
  · exact habove place node ((Path.parent_of_parts_nil hparts).symm ▸ h)
  · obtain ⟨directory, left, name, hparent, hname, hlast⟩ :=
      walk_of_parent (stat_eq_iff.mp h) hparts
    have hfresh := (habove directory .dir hparent).1
    have hdir := get?_of_walk_cons hlast
    have hpoints : name ≠ ".." := fun heq => hclimbs (heq ▸ hname)
    have hbelow := hfs directory name hfresh
    have hthere := hgrown.places (directory ++ [name])
    rw [walk, hdir] at hlast
    grind [walk]

/-- If directories were missing on the way, the path leads to one that has been made. -/
theorem fresh_of_makeDirs {depth : Nat} {node : Node}
    (hmade : fs.makeDirs base depth p = (fs', .ok ())) (hsome : fs' ≠ fs)
    (h : fs'.stat base p = .ok (place, node)) : fs.get? place = none ∧ node = .dir := by
  induction depth generalizing p fs' place node with
  | zero =>
    unfold makeDirs at hmade
    split at hmade
    · next hok =>
      obtain ⟨rfl, -⟩ := Prod.mk.inj hmade
      exact fresh_of_makeDir ⟨fun _ _ => id, rfl⟩ hok h
    · cases hmade
    · exact absurd (Prod.mk.inj hmade).1.symm hsome
  | succ depth ih =>
    unfold makeDirs at hmade
    split at hmade
    · next hok =>
      obtain ⟨rfl, -⟩ := Prod.mk.inj hmade
      exact fresh_of_makeDir ⟨fun _ _ => id, rfl⟩ hok h
    · split at hmade <;> next habove =>
        have hgrown := grown_makeDirs habove
        first
        | cases hmade
        | split at hmade
          · next hok =>
            obtain ⟨rfl, -⟩ := Prod.mk.inj hmade
            exact fresh_of_makeDir hgrown.extended hok h
          · cases hmade
          · -- the last directory is there once those above have been made
            obtain ⟨rfl, -⟩ := Prod.mk.inj hmade
            exact fresh_of_parent hfs hclimbs hgrown
              (fun _ _ => ih (fun hmem => hclimbs (Path.mem_of_mem_parent hmem)) habove hsome) h
    · exact absurd (Prod.mk.inj hmade).1.symm hsome

end Fresh

/-- Nothing is read below directories that had to be made, by a path that does not climb. -/
theorem read_of_made {base : Place} {p : Path} (hfs : fs.Grounded) (hclimbs : ".." ∉ p.parts)
    {depth : Nat} (hmade : fs.makeDirs base depth p.parent = (fs', .ok ())) (hsome : fs' ≠ fs)
    (content : Bytes) : fs'.read base p ≠ .ok content := by
  intro hread
  obtain ⟨place, node, hfile, hlocate⟩ := locate_of_read hread
  have hparent : ".." ∉ p.parent.parts := fun hmem => hclimbs (Path.mem_of_mem_parent hmem)
  exact hfile (fresh_of_parent hfs hclimbs (grown_makeDirs hmade)
    (fun _ _ => fresh_of_makeDirs hfs hparent hmade hsome) (stat_eq_iff.mpr hlocate)).2

end FileSystem

end CommandShell
