import CommandShell.Proofs.FileSystem.Growth
import CommandShell.Proofs.FileSystem.Making
import CommandShell.Proofs.FileSystem.Rooted

/-!
# Leaving links out of a path

A path without links is found by looking at one name after the other. As long as the system answers
when it is asked about the paths on the way, none of whose texts is too long for it, the result is
the place that the path leads to; without an answer a link stays in it.

## Main statements

- `FileSystem.realPlace_of_locate`: the place that is found is the one that the path leads to.
- `FileSystem.realPlace_base`: a path from the root has the same place from every directory.
- `FileSystem.isName_of_mem_realPlace`: the place is made of names.
- `FileSystem.realPlace_detour`: a link whose path is too long is kept.
-/

namespace CommandShell

namespace Path

variable {p : Path} {base : List String} {name : String}

@[simp] theorem isAbsolute_child (p : Path) (name : String) :
    (p.child name).isAbsolute = p.isAbsolute := rfl

@[simp] theorem isAbsolute_above (p : Path) : p.above.isAbsolute = p.isAbsolute := by
  unfold above
  split <;> rfl

theorem placeFrom_child (hempty : name ≠ "") (hpoint : name ≠ ".") (hpoints : name ≠ "..") :
    (p.child name).placeFrom base = p.placeFrom base ++ [name] := by
  simp [placeFrom, child, isAbsolute, follow, hempty, hpoint, hpoints]

theorem placeFrom_child_points : (p.child "..").placeFrom base = (p.placeFrom base).dropLast := by
  simp [placeFrom, child, isAbsolute, follow]

/-- The names that lead from the root are those of the directory or of the path. -/
theorem mem_placeFrom (h : name ∈ p.placeFrom base) :
    p.isAbsolute = false ∧ name ∈ base ∨ name ∈ p.parts ∧ isPart name = true := by
  have hfold (names start : List String) (h : name ∈ names.foldl follow start) :
      name ∈ start ∨ name ∈ names ∧ isPart name = true := by
    induction names generalizing start with
    | nil => exact .inl h
    | cons first names ih =>
      obtain hstart | ⟨hmem, hpart⟩ := ih _ h
      · unfold follow at hstart
        split at hstart
        · exact .inl hstart
        · next hskip =>
          split at hstart
          · exact .inl (List.dropLast_subset _ hstart)
          · obtain hname | hname := List.mem_append.mp hstart
            · exact .inl hname
            · obtain rfl := List.mem_singleton.mp hname
              exact .inr ⟨List.mem_cons_self, by simpa [isPart] using hskip⟩
      · exact .inr ⟨List.mem_cons_of_mem _ hmem, hpart⟩
  obtain hstart | hparts := hfold p.parts _ h
  · cases habsolute : p.isAbsolute with
    | false => exact .inl ⟨rfl, by simpa [habsolute] using hstart⟩
    | true => simp [habsolute] at hstart
  · exact .inr hparts

/-- Where a path from the root leads does not depend on a directory. -/
theorem placeFrom_base (h : p.isAbsolute = true) (base base' : List String) :
    p.placeFrom base = p.placeFrom base' := by
  simp [placeFrom, h]

end Path

namespace FileSystem

variable {fs : FileSystem} {base : Place}

/-- The paths at which the system is asked for a link while links are left out of a path. -/
def sights (fs : FileSystem) (base : Place) (links : Nat) (p : Path) (names : List String) :
    List Path :=
  match names with
  | [] => []
  | name :: rest =>
    if name = "" || name = "." then sights fs base links p rest
    else if name = ".." then sights fs base links p.above rest
    else
      p.child name ::
        match fs.linkAt? base (p.child name) with
        | none => sights fs base links (p.child name) rest
        | some target =>
          match links with
          | 0 => []
          | links + 1 =>
            sights fs base links (if isFromRoot target then .ofParts [] else p)
              (namesOf target ++ rest)
  termination_by (links, names.length)

/-- No path is too long for the system to be asked about it while links are left out of a path. -/
def InSight (fs : FileSystem) (base : Place) (p : Path) : Prop :=
  ∀ q ∈ fs.sights base maxLinks ⟨if p.isAbsolute then .root else .relative, []⟩ p.parts,
    (Utf8.encode q.text).length ≤ maxPath

/-- A path without links, and the place that it leads to by its names alone. -/
inductive Reached (fs : FileSystem) (base : Place) : Path → Place → Prop where
  | root : Reached fs base (.ofParts []) []
  | here : Reached fs base ⟨.relative, []⟩ base
  | above {p : Path} {place : Place} (h : Reached fs base p place)
      (hdir : fs.get? place = some .dir)
    (hopen : place ∉ fs.closed) (hup : (!p.isAbsolute && p.parts.getLast?.all (· == "..")) = true) :
    Reached fs base (p.child "..") place.dropLast
  | child {p : Path} {place : Place} {name : String} (h : Reached fs base p place)
    (hdir : fs.get? place = some .dir) (hopen : place ∉ fs.closed) (hempty : name ≠ "")
      (hpoint : name ≠ ".")
    (hpoints : name ≠ "..") (hlength : ¬ maxName < (Utf8.encode name).length)
    (hlink : ∀ target, fs.get? (place ++ [name]) ≠ some (.link target)) :
    Reached fs base (p.child name) (place ++ [name])

namespace Reached

variable {p : Path} {place : Place}

theorem placeFrom (h : Reached fs base p place) : p.placeFrom base = place := by
  induction h with
  | root | here => rfl
  | above h hdir hopen hup ih => rw [Path.placeFrom_child_points, ih]
  | child h hdir hopen hempty hpoint hpoints hlength hlink ih =>
    rw [Path.placeFrom_child hempty hpoint hpoints, ih]

/-- The names of such a path lead to its place. -/
theorem walk (h : Reached fs base p place) {purpose : Purpose} (hpurpose : purpose ≠ .create)
    (links : Nat) (rest : List String) :
    fs.walk purpose links (if p.isAbsolute then [] else base) (p.parts ++ rest) =
      fs.walk purpose links place rest := by
  induction h generalizing rest with
  | root | here => rfl
  | @above p place h hdir hopen hup ih =>
    rw [Path.isAbsolute_child, Path.child, List.append_assoc, List.singleton_append, ih,
      FileSystem.walk, hdir]
    simp [hopen]
  | @child p place name h hdir hopen hempty hpoint hpoints hlength hlink ih =>
    rw [Path.isAbsolute_child, Path.child, List.append_assoc, List.singleton_append, ih,
      FileSystem.walk, hdir]
    simp only [hempty, hopen, hpoint, hpoints, hpurpose, hlength, if_false, decide_false,
      Bool.false_and, Bool.false_eq_true]
    rcases hnode : fs.get? (place ++ [name]) with _ | node
    · -- behind a name that is missing there is nothing
      cases rest <;> simp [FileSystem.walk, hnode]
    · cases node with
      | link target => exact absurd hnode (hlink target)
      | _ => rfl

/-- Asked about a name, the system shows the link that stands there, if one does. -/
theorem linkAt? (h : Reached fs base p place) {name : String} (hdir : fs.get? place = some .dir)
    (hopen : place ∉ fs.closed) (hempty : name ≠ "") (hpoint : name ≠ ".") (hpoints : name ≠ "..")
    (hlength : ¬ maxName < (Utf8.encode name).length)
    (hsize : (Utf8.encode (p.child name).text).length ≤ maxPath) (target : String) :
    fs.linkAt? base (p.child name) = some target ↔
      fs.get? (place ++ [name]) = some (.link target) := by
  have hlook : fs.locate .look base (p.child name) =
      .ok (place ++ [name], fs.get? (place ++ [name])) := by
    rw [locate, if_neg (Nat.not_lt.mpr hsize), Path.isAbsolute_child, Path.child,
      h.walk (by decide), FileSystem.walk, hdir]
    simp only [hempty, hopen, hpoint, hpoints, hlength, if_false]
    rcases hnode : fs.get? (place ++ [name]) with _ | node
    · rfl
    · cases node <;> simp [FileSystem.walk, hnode]
  rw [FileSystem.linkAt?, hlook]
  rcases fs.get? (place ++ [name]) with _ | node
  · simp
  · cases node <;> simp

/-- The directory above is reached by the path above. -/
theorem up (h : Reached fs base p place) (hdir : fs.get? place = some .dir)
    (hopen : place ∉ fs.closed) : Reached fs base p.above place.dropLast := by
  cases h with
  | root => exact .root
  | here => exact .above .here hdir hopen rfl
  | @above p place h hdir' hopen' hup =>
    have hagain : (!(p.child "..").isAbsolute && (p.child "..").parts.getLast?.all (· == "..")) =
        true := by
      have hrelative : p.isAbsolute = false := by simpa using (Bool.and_eq_true_iff.mp hup).1
      rw [Path.isAbsolute_child, hrelative]
      simp [Path.child]
    rw [Path.above, if_pos hagain]
    exact .above (.above h hdir' hopen' hup) hdir hopen hagain
  | @child p place name h hdir' hopen' hempty hpoint hpoints hlength hlink =>
    have hback : (p.child name).above = p := by simp [Path.above, Path.child, Path.parent, hpoints]
    rw [hback, List.dropLast_concat]
    exact h

end Reached

section Steps

variable {links : Nat} {p : Path} {name target : String}

theorem realPath_of_none (hempty : name ≠ "") (hpoint : name ≠ ".") (hpoints : name ≠ "..")
    (h : fs.linkAt? base (p.child name) = none) (rest : List String) :
    fs.realPath base links p (name :: rest) = fs.realPath base links (p.child name) rest := by
  rw [realPath, h]
  simp [hempty, hpoint, hpoints]

theorem realPath_of_some (hempty : name ≠ "") (hpoint : name ≠ ".") (hpoints : name ≠ "..")
    (h : fs.linkAt? base (p.child name) = some target) (rest : List String) :
    fs.realPath base (links + 1) p (name :: rest) =
      fs.realPath base links (if isFromRoot target then .ofParts [] else p)
        (namesOf target ++ rest) := by
  rw [realPath, h]
  simp [hempty, hpoint, hpoints]

end Steps

/-- Links are followed by the names of a path and left out of it at the same time. -/
theorem reached_realPath {links : Nat} {start place : Place} {names : List String} {p : Path}
    {node : Option Node} (hp : Reached fs base p start)
    (hsight : ∀ q ∈ fs.sights base links p names, Path.size q.text ≤ maxPath)
    (h : fs.walk .follow links start names = .ok (place, node)) :
    Reached fs base (fs.realPath base links p names) place := by
  generalize hpurpose : Purpose.follow = purpose at h
  fun_induction walk fs purpose links start names generalizing p with
  | case1 links start =>
    obtain ⟨rfl, -⟩ : start = place ∧ fs.get? start = node := by simpa using h
    rwa [realPath]
  | case3 links start rest hdir ih | case5 links start rest hdir hopen hempty ih =>
    rw [sights] at hsight
    rw [realPath]
    exact ih hp (by simpa using hsight) h
  | case6 links start rest hdir hopen hempty hpoint ih =>
    rw [sights] at hsight
    rw [realPath]
    exact ih (hp.up hdir hopen) (by simpa using hsight) h
  | case9 links start name rest hdir hempty hopen hpoint hpoints hcreate hlength hnone hlast =>
    obtain ⟨rfl, -⟩ : start ++ [name] = place ∧ none = node := by simpa using h
    obtain rfl := List.isEmpty_iff.mp hlast
    rw [sights] at hsight
    have hlook := hp.linkAt? hdir hopen hempty hpoint hpoints hlength
      (hsight _ (by simp [hempty, hpoint, hpoints]))
    have hshown : fs.linkAt? base (p.child name) = none := by
      rw [Option.eq_none_iff_forall_ne_some]
      simp [hlook, hnone]
    rw [realPath_of_none hempty hpoint hpoints hshown, realPath]
    exact .child hp hdir hopen hempty hpoint hpoints hlength (by simp [hnone])
  | case13 start name rest hdir hempty hopen hpoint hpoints hcreate hlength target hlink
      hlast links ih =>
    rw [sights] at hsight
    have hlook := hp.linkAt? hdir hopen hempty hpoint hpoints hlength
      (hsight _ (by simp [hempty, hpoint, hpoints]))
    have hshown := (hlook target).mpr hlink
    rw [realPath_of_some hempty hpoint hpoints hshown]
    rw [hshown] at hsight
    simp only [hempty, hpoint, hpoints, decide_false, Bool.or_self, Bool.false_eq_true,
      if_false] at hsight
    refine ih ?_ (fun q hq => hsight q (List.mem_cons_of_mem _ hq)) h
    split
    · exact .root
    · exact hp
  | case14 links start name rest hdir hempty hopen hpoint hpoints hcreate hlength node'
      hlink hnode ih =>
    rw [sights] at hsight
    have hlook := hp.linkAt? hdir hopen hempty hpoint hpoints hlength
      (hsight _ (by simp [hempty, hpoint, hpoints]))
    have hnolink (target : String) : fs.get? (start ++ [name]) ≠ some (.link target) :=
      fun htarget =>
      hlink target (Option.some.inj (hnode.symm.trans htarget))
    have hshown : fs.linkAt? base (p.child name) = none := by
      rw [Option.eq_none_iff_forall_ne_some]
      exact fun target htarget => hnolink target ((hlook target).mp htarget)
    have hnext := Reached.child hp hdir hopen hempty hpoint hpoints hlength hnolink
    rw [realPath_of_none hempty hpoint hpoints hshown]
    rw [hshown] at hsight
    simp only [hempty, hpoint, hpoints, decide_false, Bool.or_self, Bool.false_eq_true,
      if_false] at hsight
    refine ih hnext (fun q hq => hsight q (List.mem_cons_of_mem _ hq)) ?_
    cases node' with
    | link target => exact absurd rfl (hlink target)
    | _ => exact h
  | _ => simp_all

/-- The place that is found for a path is the one that the path leads to, as long as no path on the
way is too long to be looked at. -/
theorem realPlace_of_locate {p : Path} {place : Place} {node : Option Node}
    (hsight : fs.InSight base p) (h : fs.locate .follow base p = .ok (place, node)) :
      fs.realPlace base p = place := by
  unfold locate at h
  split at h
  · cases h
  · refine Reached.placeFrom (reached_realPath ?_ hsight h)
    cases p.isAbsolute
    · exact .here
    · exact .root

/-! ## What is found for every path -/

theorem linkAt?_base {p : Path} (h : p.isAbsolute = true) (base base' : Place) :
    fs.linkAt? base p = fs.linkAt? base' p := by
  rw [linkAt?, linkAt?, locate_base h base base']

section Every

variable {links : Nat} {p : Path} {names : List String}

/-- What is found for a path from the root starts at the root, whatever directory the system is
asked from. -/
theorem realPath_base (h : p.isAbsolute = true) (base base' : Place) :
    (fs.realPath base links p names).isAbsolute = true ∧
      fs.realPath base' links p names = fs.realPath base links p names := by
  have hfold (rest : List String) (p : Path) (h : p.isAbsolute = true) :
      (rest.foldl Path.child p).isAbsolute = true := by
    induction rest generalizing p with
    | nil => exact h
    | cons name rest ih => exact ih (p.child name) h
  fun_induction realPath fs base links p names with
  | case1 => exact ⟨h, by rw [realPath]⟩
  | case2 links p name rest hskip ih =>
    rw [realPath, if_pos hskip]
    exact ih h
  | case3 links p rest hskip ih =>
    rw [realPath, if_neg hskip, if_pos rfl]
    exact ih (by simpa using h)
  | case4 links p name rest hskip hpoints hlink ih =>
    have hsame := @linkAt?_base fs (p.child name) h base' base
    rw [realPath, if_neg hskip, if_neg hpoints, hsame, hlink]
    exact ih h
  | case5 p name rest hskip hpoints target hlink =>
    have hsame := @linkAt?_base fs (p.child name) h base' base
    rw [realPath, if_neg hskip, if_neg hpoints, hsame, hlink]
    exact ⟨hfold rest _ h, rfl⟩
  | case6 p name rest hskip hpoints target hlink links ih =>
    have hsame := @linkAt?_base fs (p.child name) h base' base
    rw [realPath, if_neg hskip, if_neg hpoints, hsame, hlink]
    exact ih (by split <;> simp [h])

/-- The names of what is found are names of what is followed. -/
theorem slash_of_mem_realPath (hp : ∀ name ∈ p.parts, '/' ∉ name.toList)
    (hnames : ∀ name ∈ names, '/' ∉ name.toList) (base : Place) :
      ∀ name ∈ (fs.realPath base links p names).parts, '/' ∉ name.toList := by
  have hchild {p : Path} {name : String} (hp : ∀ n ∈ p.parts, '/' ∉ n.toList)
      (hname : '/' ∉ name.toList) :
      ∀ n ∈ (p.child name).parts, '/' ∉ n.toList := by
    intro n hn
    obtain hn | hn := List.mem_append.mp hn
    · exact hp n hn
    · exact List.mem_singleton.mp hn ▸ hname
  have hfold (rest : List String) (p : Path) (hp : ∀ n ∈ p.parts, '/' ∉ n.toList)
      (hrest : ∀ n ∈ rest, '/' ∉ n.toList) : ∀ n ∈ (rest.foldl Path.child p).parts,
        '/' ∉ n.toList := by
    induction rest generalizing p with
    | nil => exact hp
    | cons name rest ih =>
      exact ih (p.child name) (hchild hp (hrest name List.mem_cons_self)) fun n hn =>
        hrest n (List.mem_cons_of_mem _ hn)
  fun_induction realPath fs base links p names with
  | case1 => exact hp
  | case2 links p name rest hskip ih => exact ih hp fun n hn => hnames n (List.mem_cons_of_mem _ hn)
  | case3 links p rest hskip ih =>
    refine ih ?_ fun n hn => hnames n (List.mem_cons_of_mem _ hn)
    unfold Path.above
    split
    · exact hchild hp (by decide)
    · exact fun n hn => hp n (List.dropLast_subset _ hn)
  | case4 links p name rest hskip hpoints hlink ih =>
    exact ih (hchild hp (hnames name List.mem_cons_self)) fun n hn =>
      hnames n (List.mem_cons_of_mem _ hn)
  | case5 p name rest hskip hpoints target hlink =>
    exact hfold rest _ (hchild hp (hnames name List.mem_cons_self)) fun n hn =>
      hnames n (List.mem_cons_of_mem _ hn)
  | case6 p name rest hskip hpoints target hlink links ih =>
    refine ih ?_ fun n hn => ?_
    · split
      · simp [Path.ofParts]
      · exact hp
    · obtain hn | hn := List.mem_append.mp hn
      · exact slash_of_mem_namesOf hn
      · exact hnames n (List.mem_cons_of_mem _ hn)

end Every

/-- A path from the root has the same place from every directory. -/
theorem realPlace_base {p : Path} (h : p.isAbsolute = true) (base base' : Place) :
    fs.realPlace base p = fs.realPlace base' p := by
  have hroot : Path.isAbsolute ⟨.root, []⟩ = true := rfl
  obtain ⟨habsolute, heq⟩ := @realPath_base fs maxLinks _ p.parts hroot base base'
  simp only [realPlace, h, if_true]
  rw [heq]
  exact Path.placeFrom_base habsolute base base'

/-- The place of a path is made of names, if the path starts at the root or its base is. -/
theorem isName_of_mem_realPlace {p : Path}
    (h : p.isAbsolute = true ∨ ∀ name ∈ base, Path.IsName name) (hs : p.Sound) :
      ∀ name ∈ fs.realPlace base p, Path.IsName name := by
  have hslash := @slash_of_mem_realPath fs maxLinks ⟨if p.isAbsolute then .root else .relative, []⟩
    p.parts (by simp) (fun name hname => (hs name hname).slash) base
  intro name hname
  obtain ⟨hrelative, hbase⟩ | ⟨hpart, hisPart⟩ := Path.mem_placeFrom hname
  · obtain habsolute | hnames := h
    · have hroot := (@realPath_base fs maxLinks ⟨.root, []⟩ p.parts rfl base base).1
      rw [habsolute] at hrelative
      exact absurd (hroot.symm.trans hrelative) (by decide)
    · exact hnames name hbase
  · exact ⟨hisPart, hslash name hpart⟩

/-! ## A link out of sight -/

/-- A name that is nearly as long as names may be. -/
def longName : String := String.ofList (List.replicate 250 'a')

/-- A shorter name. -/
def signpost : String := String.ofList (List.replicate 100 's')

/-- The place that so many directories of the long name lead to. -/
def below (n : Nat) : Place := List.replicate n longName

/-- So many directories in one another. -/
def dug : Nat → FileSystem
  | 0 => {}
  | n + 1 => (dug n).set (below (n + 1)) .dir

/-- The place at the bottom whose path is too long. -/
def hidden : Place := below 16 ++ [signpost]

/-- Directories in one another, with a link at the bottom and one that leads there. -/
def deep : FileSystem :=
  (((dug 16).set (below 16 ++ ["t"]) .dir).set hidden (.link "t")).set ["l"]
    (.link (Path.ofParts (below 16)).text)

theorem below_succ (n : Nat) : below (n + 1) = below n ++ [longName] := List.replicate_succ'

theorem ofParts_below_succ (n : Nat) :
    (Path.ofParts (below n)).child longName = .ofParts (below (n + 1)) := by
  rw [below_succ]
  rfl

theorem length_below (n : Nat) : (below n).length = n := List.length_replicate

theorem size_longName : Path.size longName = 250 := Path.size_replicate rfl 250

theorem size_signpost : Path.size signpost = 100 := Path.size_replicate rfl 100

theorem ordinary_longName : Path.Ordinary longName :=
  Path.ordinary_replicate (by decide) (by decide) (by decide)

theorem ordinary_signpost : Path.Ordinary signpost :=
  Path.ordinary_replicate (by decide) (by decide) (by decide)

theorem size_below (n : Nat) : Path.size ("/".intercalate (below (n + 1))) = 251 * n + 250 := by
  induction n with
  | zero =>
    rw [below_succ, show below 0 = [] from rfl, List.nil_append, String.intercalate_singleton,
      size_longName]
  | succ n ih =>
    rw [below_succ, String.intercalate_append_of_ne_nil (by simp [below_succ]) (by simp),
      String.intercalate_singleton, Path.size_append, Path.size_append, ih, size_longName]
    have hslash : Path.size "/" = 1 := by decide
    omega

theorem size_text_below {n : Nat} (h : n ≤ 16) :
    Path.size (Path.ofParts (below n)).text ≤ maxPath := by
  have htext : (Path.ofParts (below n)).text = "/" ++ "/".intercalate (below n) := rfl
  have hslash : Path.size "/" = 1 := rfl
  rw [htext, Path.size_append, hslash]
  cases n with
  | zero => decide
  | succ n =>
    rw [size_below]
    simp only [maxPath]
    omega

theorem size_text_signpost (n : Nat) :
    Path.size ((Path.ofParts (below (n + 1))).child signpost).text = 251 * n + 352 := by
  have htext : ((Path.ofParts (below (n + 1))).child signpost).text =
      "/" ++ "/".intercalate (below (n + 1) ++ [signpost]) := rfl
  have hslash : Path.size "/" = 1 := by decide
  rw [htext, String.intercalate_append_of_ne_nil (by simp [below]) (by simp),
    String.intercalate_singleton,
    Path.size_append, Path.size_append, Path.size_append, size_below, size_signpost]
  omega

theorem get?_dug {n k : Nat} (h : k ≤ n) : (dug n).get? (below k) = some .dir := by
  induction n with
  | zero =>
    obtain rfl := Nat.le_zero.mp h
    rfl
  | succ n ih =>
    rw [dug]
    by_cases hk : k = n + 1
    · subst hk
      exact get?_set_self _ _ (by simp [below])
    · rw [get?_set_of_ne, ih (by omega)]
      intro heq
      exact hk (by simpa [length_below] using congrArg List.length heq)

theorem get?_deep {k : Nat} (h : k ≤ 16) : deep.get? (below k) = some .dir := by
  have hlength (name : String) : below k ≠ below 16 ++ [name] := by
    intro heq
    have := congrArg List.length heq
    simp [length_below] at this
    omega
  have hlink : below k ≠ ["l"] := by
    intro heq
    have hmem : "l" ∈ below k := heq ▸ List.mem_singleton_self "l"
    have hname := List.eq_of_mem_replicate hmem
    exact absurd (congrArg Path.size hname) (by rw [size_longName]; decide)
  rw [deep, hidden, get?_set_of_ne _ _ hlink, get?_set_of_ne _ _ (hlength _),
    get?_set_of_ne _ _ (hlength _), get?_dug h]

theorem get?_deep_link : deep.get? ["l"] = some (.link (Path.ofParts (below 16)).text) :=
  get?_set_self _ _ (by simp)

theorem get?_deep_hidden : deep.get? hidden = some (.link "t") := by
  have hlength : hidden.length = 17 := by simp [hidden, length_below]
  rw [deep, get?_set_of_ne, get?_set_self _ _ (by simp [hidden])]
  intro heq
  exact absurd (congrArg List.length heq) (by simp [hlength])

theorem get?_deep_bottom : deep.get? (below 16 ++ ["t"]) = some .dir := by
  rw [deep, get?_set_of_ne, get?_set_of_ne, get?_set_self _ _ (by simp)]
  · intro heq
    have hname : "t" = signpost := by simpa [hidden] using heq
    exact absurd (congrArg Path.size hname) (by rw [size_signpost]; decide)
  · intro heq
    have := congrArg List.length heq
    simp [length_below] at this

theorem closed_deep : deep.closed = [] := rfl

theorem longName_short : ¬ maxName < (Utf8.encode longName).length := by
  rw [show (Utf8.encode longName).length = 250 from size_longName]
  decide

theorem reached_deep {k : Nat} (h : k ≤ 16) : Reached deep [] (.ofParts (below k)) (below k) := by
  induction k with
  | zero => exact .root
  | succ k ih =>
    rw [← ofParts_below_succ, below_succ]
    have hdir := get?_deep (k := k) (by omega)
    refine .child (ih (by omega)) hdir (by simp [closed_deep]) ordinary_longName.ne_empty
      ordinary_longName.ne_point ordinary_longName.ne_points longName_short fun target hlink => ?_
    rw [← below_succ, get?_deep h] at hlink
    cases hlink

theorem realPath_deep (links : Nat) (rest : List String) {k n : Nat} (h : k + n ≤ 16) :
    deep.realPath [] links (.ofParts (below k)) (below n ++ rest) =
      deep.realPath [] links (.ofParts (below (k + n))) rest := by
  induction n generalizing k with
  | zero => rfl
  | succ n ih =>
    have hlink : deep.linkAt? [] ((Path.ofParts (below k)).child longName) = none := by
      have hiff :=
        (reached_deep (k := k) (by omega)).linkAt? (get?_deep (by omega)) (by simp [closed_deep])
        ordinary_longName.ne_empty ordinary_longName.ne_point ordinary_longName.ne_points
          longName_short
        (by rw [ofParts_below_succ]; exact size_text_below (by omega))
      rw [← below_succ, get?_deep (by omega)] at hiff
      rw [Option.eq_none_iff_forall_ne_some]
      intro target htarget
      cases (hiff target).mp htarget
    rw [show below (n + 1) ++ rest = longName :: (below n ++ rest) from rfl,
      realPath_of_none ordinary_longName.ne_empty ordinary_longName.ne_point
        ordinary_longName.ne_points hlink, ofParts_below_succ, ih (by omega), Nat.add_right_comm]
    rfl


/-- The path to the link at the bottom that leads there by the other link. -/
def detour : Path := (Path.ofParts ["l"]).child signpost

theorem signpost_short : ¬ maxName < (Utf8.encode signpost).length := by
  rw [show (Utf8.encode signpost).length = 100 from size_signpost]
  decide

theorem sound_below (n : Nat) : (Path.ofParts (below n)).Sound := by
  intro name hname
  rw [List.eq_of_mem_replicate hname]
  exact ordinary_longName.isName

theorem namesOf_below (n : Nat) : namesOf (Path.ofParts (below n)).text = below n :=
  namesOf_text rfl (sound_below n)

theorem isFromRoot_below (n : Nat) : isFromRoot (Path.ofParts (below n)).text = true := by
  simp [isFromRoot, Path.text, Path.ofParts]

theorem sound_detour : detour.Sound := by
  intro name hname
  obtain rfl | rfl : name = "l" ∨ name = signpost := by
    simpa [detour, Path.child, Path.ofParts] using hname
  · exact ⟨by decide, by decide⟩
  · exact ordinary_signpost.isName

theorem size_text_detour : Path.size detour.text = 103 := by
  have htext : detour.text = "/" ++ "/".intercalate (["l"] ++ [signpost]) := rfl
  have hslash : Path.size "/" = 1 := by decide
  have hl : Path.size "l" = 1 := by decide
  rw [htext, String.intercalate_append_of_ne_nil (by simp) (by simp), String.intercalate_singleton,
    String.intercalate_singleton, Path.size_append, Path.size_append, Path.size_append,
      size_signpost, hslash, hl]

theorem stat_detour : deep.stat [] detour = .ok (below 16 ++ ["t"], .dir) := by
  have hroot : deep.get? [] = some .dir := rfl
  have hshort : ¬ maxPath < (Utf8.encode detour.text).length := by
    rw [show (Utf8.encode detour.text).length = 103 from size_text_detour]
    decide
  have hbottom : deep.walk .follow 39 (below 16) [signpost] =
      .ok (below 16 ++ ["t"], some .dir) := by
    have ht : namesOf "t" ++ [] = ["t"] := by decide +kernel
    have hhere : isFromRoot "t" = false := by decide +kernel
    have hlink : deep.get? (below 16 ++ [signpost]) = some (.link "t") := get?_deep_hidden
    have hname : ¬ maxName < (Utf8.encode "t").length := by decide
    rw [walk, get?_deep (by omega)]
    simp only [ordinary_signpost.ne_empty, ordinary_signpost.ne_point, ordinary_signpost.ne_points,
      closed_deep, List.not_mem_nil, signpost_short, if_false,
      hlink, List.isEmpty_nil, reduceCtorEq, decide_false, Bool.and_false, Bool.false_eq_true]
    rw [ht, hhere, if_neg Bool.false_ne_true, walk, get?_deep (by omega)]
    simp [closed_deep, get?_deep_bottom, walk, hname]
  have hdown : deep.walk .follow 39 [] (below 16 ++ [signpost]) =
      deep.walk .follow 39 (below 16) [signpost] :=
    (reached_deep (k := 16) (by omega)).walk (by decide) 39 [signpost]
  have hwalk : deep.walk .follow maxLinks [] ["l", signpost] =
      .ok (below 16 ++ ["t"], some .dir) := by
    have hname : ¬ maxName < (Utf8.encode "l").length := by decide
    rw [← hbottom, ← hdown, maxLinks, walk, hroot]
    simp [closed_deep, get?_deep_link, hname, isFromRoot_below, namesOf_below]
  have hlocate : deep.locate .follow [] detour = .ok (below 16 ++ ["t"], some .dir) := by
    rw [locate, if_neg hshort]
    exact hwalk
  rw [stat, hlocate, present]

/-- The link at the bottom has a path that is too long. -/
theorem locate_hidden (purpose : Purpose) :
    deep.locate purpose [] (.ofParts hidden) = .error .nameTooLong := by
  have hsize : (Utf8.encode (Path.ofParts hidden).text).length = 251 * 15 + 352 :=
    size_text_signpost 15
  have hlong : maxPath < (Utf8.encode (Path.ofParts hidden).text).length := by
    rw [hsize]
    decide
  rw [locate, if_pos hlong]

/-- Where no path is looked at that is too long, no link stays in what is found; this one does. -/
theorem realPlace_detour : deep.realPlace [] detour = hidden := by
  have hl : deep.linkAt? [] ((Path.ofParts []).child "l") = some (Path.ofParts (below 16)).text :=
    (Reached.root.linkAt? rfl (by simp [closed_deep]) (by decide) (by decide) (by decide)
      (by decide +kernel) (by decide +kernel) _).mpr get?_deep_link
  have hhidden : deep.linkAt? [] ((Path.ofParts (below 16)).child signpost) = none := by
    have hlocate : deep.locate .look [] ((Path.ofParts (below 16)).child signpost) = _ :=
      locate_hidden .look
    rw [linkAt?, hlocate]
  have hdown : deep.realPath [] 39 (.ofParts []) (below 16 ++ [signpost]) =
      deep.realPath [] 39 (.ofParts (below 16)) [signpost] :=
    @realPath_deep 39 [signpost] 0 16 (by omega)
  have hreal : deep.realPath [] maxLinks (.ofParts []) ["l", signpost] =
      (Path.ofParts (below 16)).child signpost := by
    rw [maxLinks, realPath_of_some (by decide) (by decide) (by decide) hl, isFromRoot_below,
      if_pos rfl, namesOf_below, hdown,
      realPath_of_none ordinary_signpost.ne_empty ordinary_signpost.ne_point
        ordinary_signpost.ne_points hhidden, realPath]
  have hplace : (Path.ofParts (below 16)).placeFrom [] = below 16 :=
    (reached_deep (Nat.le_refl 16)).placeFrom
  have hstart : deep.realPath [] maxLinks ⟨if detour.isAbsolute then .root else .relative, []⟩
      detour.parts = (Path.ofParts (below 16)).child signpost := hreal
  rw [realPlace, hstart,
    Path.placeFrom_child ordinary_signpost.ne_empty ordinary_signpost.ne_point
      ordinary_signpost.ne_points, hplace, hidden]

theorem hasNull_detour : Path.hasNull detour.text = false := by
  have hl : Path.hasNull "l" = false := by decide
  rw [Path.hasNull_text, show detour.parts = ["l", signpost] from rfl]
  simp only [List.any_cons, List.any_nil, ordinary_signpost.null, hl, Bool.or_self]

end FileSystem

end CommandShell
