import CommandShell.Completion
import CommandShell.Proofs.FileSystem.PathText
import CommandShell.Proofs.FileSystem.Walking

/-!
# Names that are completed and names that are run

Completion reads every directory of the search path and keeps the names of executable files; a
command is looked for by trying its name in one directory after the other. If the system lists in a
directory just what can be found there, both know the same commands.

## Main statements

- `World.scans_of_size`: the system does so for every text that is short enough.
- `Lookup.lists_iff`: a directory lists a name just if the name leads to an executable file from
  there.
- `Completion.commandNames_iff_isFound`: the names that are completed are those that are found.
-/

namespace CommandShell

open CommandShell.Path (Ordinary)

namespace World

/-- A directory is listed by a text if the path of the text leads to one, with all the names in it,
and else the listing fails. -/
structure Scans (w : World) (directory : String) : Prop where
  lists : ∀ place, w.files.stat w.directory (Path.ofText directory) = .ok (place, .dir) →
    w.namesIn directory = .ok (w.files.names place)
  fails : (∀ place, w.files.stat w.directory (Path.ofText directory) ≠ .ok (place, .dir)) →
    ∃ e p, w.namesIn directory = .error (.system e p)

end World

namespace FileSystem

variable {fs : FileSystem} {base place : Place} {node : Node} {text : String}

theorem statText_eq_iff : fs.statText base text = .ok (place, node) ↔
    fs.locateText .follow base text = .ok (place, some node) := by
  unfold statText present
  split <;> simp_all

theorem filter_namesOf (text : String) :
    (namesOf text).filter Path.isPart = (Path.ofText text).parts := by
  have hnames : ((Text.partsAt '/' text).filter (· != "")).filter Path.isPart =
      (Text.partsAt '/' text).filter Path.isPart := by
    rw [List.filter_filter]
    congr 1
    funext name
    simp [Path.isPart]
    grind
  simp only [namesOf, Path.ofText, Path.partsOf]
  split
  · rw [List.filter_append, hnames, List.filter_cons_of_neg (by decide), List.filter_nil,
      List.append_nil]
  · exact hnames

theorem isAbsolute_ofText (text : String) : (Path.ofText text).isAbsolute = isFromRoot text := by
  rw [Bool.eq_iff_iff, Path.isAbsolute_ofText_iff, isFromRoot, decide_eq_true_eq]

/-- A text that is short enough leads to a directory just if its path does, where no directory is
closed. -/
theorem statText_eq_stat (hopen : fs.closed = []) (hne : text ≠ "")
    (hsize : Path.size text ≤ maxPath) :
    fs.statText base text = .ok (place, .dir) ↔
      fs.stat base (Path.ofText text) = .ok (place, .dir) := by
  have hpath := Path.size_text_ofText hne
  have hfilter := filter_namesOf text
  have hparts : (Path.ofText text).parts.filter Path.isPart = (Path.ofText text).parts := by
    rw [← hfilter, List.filter_filter]
    simp
  rw [stat_eq_iff, statText_eq_iff, locate, locateText, if_neg hne,
    if_neg (Nat.not_lt.mpr hsize), if_neg (Nat.not_lt.mpr (Nat.le_trans hpath hsize)),
      isAbsolute_ofText]
  have hplace : place ∉ fs.closed := by simp [hopen]
  exact ⟨walk_of_filter_eq (by rw [hparts, hfilter]) hplace,
    walk_of_filter_eq (by rw [hparts, hfilter]) hplace⟩

end FileSystem

/-- What is assumed of the system holds of every text that it takes, where no directory is
closed. -/
theorem World.scans_of_size {w : World} {directory : String} (hopen : w.files.closed = [])
    (hne : directory ≠ "") (hnull : Path.hasNull directory = false)
    (hsize : Path.size directory ≤ FileSystem.maxPath) : w.Scans directory := by
  constructor
  · intro place hdir
    simp [namesIn, hnull, (FileSystem.statText_eq_stat hopen hne hsize).mpr hdir]
  · intro hnot
    have hnot (place : Place) : w.files.statText w.directory directory ≠ .ok (place, .dir) :=
      fun hdir => hnot place ((FileSystem.statText_eq_stat hopen hne hsize).mp hdir)
    unfold namesIn
    rw [hnull]
    generalize w.files.statText w.directory directory = found at hnot
    rcases found with e | ⟨place, node⟩
    · simp
    · cases node <;> simp_all

/-- What may be executed is there. -/
theorem World.exists_stat_of_isExecutable {w : World} {p : Path} (h : w.isExecutable p = true) :
    ∃ place node, w.files.stat w.directory p = .ok (place, node) := by
  rcases hs : w.files.stat w.directory p with e | ⟨place, node⟩
  · simp only [isExecutable, test, FileSystem.test, hs] at h
    grind
  · exact ⟨place, node, rfl⟩

namespace Lookup

variable {w : World} {directory name : String}

/-- A name is listed among the executable files in a directory. -/
def Lists (w : World) (directory name : String) : Prop :=
  ∃ names, executablesIn w directory = .ok names ∧ name ∈ names

/-- Where a name leads that is seen from a directory. -/
def candidate (directory name : String) : Path := (Path.ofText directory).join (Path.ofText name)

theorem exists_executablesIn (h : w.Scans directory) :
    ∃ names, executablesIn w directory = .ok names := by
  unfold executablesIn
  by_cases hdir : ∃ place, w.files.stat w.directory (Path.ofText directory) = .ok (place, .dir)
  · obtain ⟨place, hdir⟩ := hdir
    rw [h.lists place hdir]
    exact ⟨_, rfl⟩
  · obtain ⟨e, p, hfails⟩ := h.fails fun place hplace => hdir ⟨place, hplace⟩
    rw [hfails]
    exact ⟨_, rfl⟩

/-- An executable file that a name leads to from a directory is one of the names in the
directory. -/
theorem mem_names_of_isExecutable (hname : Ordinary name)
    (h : w.isExecutable (candidate directory name) = true) :
    ∃ place, w.files.stat w.directory (Path.ofText directory) = .ok (place, .dir) ∧
      name ∈ w.files.names place := by
  obtain ⟨place, node, hstat⟩ := World.exists_stat_of_isExecutable h
  have hlocate := FileSystem.stat_eq_iff.mp hstat
  have hcandidate : candidate directory name =
      ⟨(Path.ofText directory).anchor, (Path.ofText directory).parts ++ [name]⟩ := by
    rw [candidate, hname.ofText]
    rfl
  have hshort : Path.size (Path.ofText directory).text ≤
      Path.size (candidate directory name).text := by
    rw [candidate, hname.ofText]
    exact Path.size_text_le _ hname.ne_empty
  rw [FileSystem.locate] at hlocate
  split at hlocate
  · cases hlocate
  · next hlength =>
    have hlength : ¬ FileSystem.maxPath < Path.size (Path.ofText directory).text := fun h =>
      hlength (Nat.lt_of_lt_of_le h hshort)
    rw [hcandidate] at hlocate
    obtain ⟨holder, hwalk, hheld⟩ := FileSystem.walk_append hname hlocate
    refine ⟨holder, FileSystem.stat_eq_iff.mpr ?_, FileSystem.mem_names_iff.mpr hheld⟩
    rw [FileSystem.locate, if_neg hlength]
    exact hwalk

/-- A name that a directory lists leads to an executable file from there. -/
theorem isExecutable_of_lists (hname : Ordinary name) (h : Lists w directory name) :
    w.isExecutable (candidate directory name) = true := by
  obtain ⟨names, hnames, hmem⟩ := h
  unfold executablesIn at hnames
  split at hnames
  · cases hnames
    cases hmem
  · cases hnames
  · cases hnames
    rw [candidate, ← Path.ofText_inDirectory directory hname]
    exact (List.mem_filter.mp hmem).2

/-- A directory lists a name just if the name leads to an executable file from there. -/
theorem lists_iff (h : w.Scans directory) (hname : Ordinary name) :
    Lists w directory name ↔ w.isExecutable (candidate directory name) = true := by
  constructor
  · exact isExecutable_of_lists hname
  · intro hexecutable
    obtain ⟨place, hdir, hmem⟩ := mem_names_of_isExecutable hname hexecutable
    refine ⟨_, by rw [executablesIn, h.lists place hdir], List.mem_filter.mpr ⟨hmem, ?_⟩⟩
    rwa [Path.ofText_inDirectory directory hname]

/-- The search takes the first directory from which the name leads to an executable file. -/
theorem inDirectories_eq_some_iff {directories : List String} {p : Path} :
    inDirectories w name directories = some p ↔
      ∃ before directory after, directories = before ++ directory :: after ∧
        (∀ d ∈ before, w.isExecutable (candidate d name) = false) ∧
        w.isExecutable (candidate directory name) = true ∧ p = candidate directory name := by
  change (directories.map (candidate · name)).find? w.isExecutable = some p ↔ _
  rw [List.find?_map, Option.map_eq_some_iff]
  simp only [List.find?_eq_some_iff_append, Function.comp_apply]
  constructor
  · rintro ⟨directory, ⟨hfound, before, after, rfl, hbefore⟩, rfl⟩
    exact ⟨before, directory, after, rfl, fun d hd => by simpa using hbefore d hd, hfound, rfl⟩
  · rintro ⟨before, directory, after, rfl, hbefore, hfound, rfl⟩
    exact ⟨directory, ⟨hfound, before, after, rfl, fun d hd => by simp [hbefore d hd]⟩, rfl⟩

/-- The search finds a name just if the name leads to an executable file from some directory. -/
theorem isSome_inDirectories {directories : List String} :
    (inDirectories w name directories).isSome = true ↔
    ∃ d ∈ directories, w.isExecutable (candidate d name) = true := by
  simp [inDirectories, List.find?_isSome, candidate]

/-- A name without a slash is found if it is a builtin or leads to an executable file from some
directory. -/
theorem isFound_resolve {builtins directories : List String} {cwd : Option Path}
    (hslash : name.toList.contains '/' = false) :
    (resolve w builtins directories cwd name).isFound = true ↔
      name ∈ builtins ∨ ∃ d ∈ directories, w.isExecutable (candidate d name) = true := by
  rw [resolve, hslash]
  by_cases hbuiltin : name ∈ builtins
  · simp [hbuiltin, Resolution.isFound]
  · rw [← isSome_inDirectories, if_neg (by simpa using hbuiltin), if_neg Bool.false_ne_true]
    rcases inDirectories w name directories with _ | p <;> simp [hbuiltin, Resolution.isFound]

/-- A name without a slash that is no builtin stands for the file that is found in the
directories. -/
theorem resolve_eq_external_iff {builtins directories : List String} {cwd : Option Path} {p : Path}
    (hbuiltin : name ∉ builtins) (hslash : name.toList.contains '/' = false) :
    resolve w builtins directories cwd name = .external p ↔
      inDirectories w name directories = some p := by
  rw [resolve, if_neg (by simpa using hbuiltin), hslash, if_neg Bool.false_ne_true]
  split <;> simp_all

end Lookup

namespace Completion

variable {w : World} {builtins directories : List String}

/-- The names that are completed: the builtins and what the directories list. -/
theorem commandNames_eq (builtins : List String)
    (h : ∀ d ∈ directories, ∃ names, Lookup.executablesIn w d = .ok names) :
    ∃ names, commandNames w builtins directories = .ok names ∧
      ∀ name, name ∈ names ↔ name ∈ builtins ∨ ∃ d ∈ directories, Lookup.Lists w d name := by
  induction directories generalizing builtins with
  | nil => exact ⟨builtins, rfl, by simp⟩
  | cons d rest ih =>
    obtain ⟨found, hfound⟩ := h d (by simp)
    obtain ⟨names, hnames, hmem⟩ := ih (builtins ++ found) fun d' hd' => h d' (by simp [hd'])
    refine ⟨names, ?_, fun name => ?_⟩
    · rw [commandNames, List.foldl_cons, hfound]
      exact hnames
    · have hlists : Lookup.Lists w d name ↔ name ∈ found := by
        simp [Lookup.Lists, hfound]
      simp [hmem, hlists, or_assoc]

/-- Completion and lookup know the same commands, if the system lists in each directory of the
search path just what can be found there. A name that is no builtin stands for the file of that name
in the first directory that lists it. -/
theorem commandNames_iff_isFound (hscans : ∀ d ∈ directories, w.Scans d) (cwd : Option Path) :
    ∃ names, commandNames w builtins directories = .ok names ∧
      ∀ name, Ordinary name →
        (name ∈ names ↔ (Lookup.resolve w builtins directories cwd name).isFound = true) ∧
        (name ∉ builtins → ∀ p, Lookup.resolve w builtins directories cwd name = .external p ↔
          ∃ before directory after, directories = before ++ directory :: after ∧
            (∀ d ∈ before, ¬ Lookup.Lists w d name) ∧ Lookup.Lists w directory name ∧
            p = (Path.ofText directory).join (Path.ofText name)) := by
  obtain ⟨names, hnames, hmem⟩ := commandNames_eq builtins fun d hd =>
    Lookup.exists_executablesIn (hscans d hd)
  refine ⟨names, hnames, fun name hname => ?_⟩
  have hlists (d : String) (hd : d ∈ directories) := Lookup.lists_iff (hscans d hd) hname
  have hslash : name.toList.contains '/' = false := by simpa using hname.slash
  constructor
  · rw [hmem, Lookup.isFound_resolve hslash]
    grind
  · intro hbuiltin p
    rw [Lookup.resolve_eq_external_iff hbuiltin hslash, Lookup.inDirectories_eq_some_iff]
    refine exists_congr fun before => exists_congr fun d => exists_congr fun after =>
      and_congr_right ?_
    rintro rfl
    have hbefore : (∀ d ∈ before, ¬ Lookup.Lists w d name) ↔
        ∀ d ∈ before, w.isExecutable (Lookup.candidate d name) = false :=
      forall₂_congr fun d hd => by rw [hlists d (by simp [hd]), Bool.not_eq_true]
    rw [hbefore, hlists d (by simp)]
    rfl

/-- A world with one program. -/
def equipped : World where
  files := { nodes := [(["bin"], .dir), (["bin", "ls"], .file ByteArray.empty true)] }

theorem isExecutable_equipped :
    equipped.isExecutable (Lookup.candidate "/none" "ls") = false ∧
      equipped.isExecutable (Lookup.candidate "/bin" "ls") = true := by
  have hname (name : String) (h : name ∈ ["none", "bin", "ls"]) :
      ¬ FileSystem.maxName < (Utf8.encode name).length := by
    revert name
    decide
  have hnone : equipped.files.locate .follow equipped.directory (Path.ofParts ["none", "ls"]) =
      .error .notFound := by
    rw [FileSystem.locate, if_neg (by decide)]
    simp [equipped, Path.ofParts, Path.isAbsolute, FileSystem.walk, FileSystem.get?, hname]
  have hls : equipped.files.stat equipped.directory (Path.ofParts ["bin", "ls"]) =
      .ok (["bin", "ls"], .file ByteArray.empty true) := by
    rw [FileSystem.stat_eq_iff, FileSystem.locate, if_neg (by decide)]
    simp [equipped, Path.ofParts, Path.isAbsolute, FileSystem.walk, FileSystem.get?, hname]
  have hnull : Path.hasNull (Path.ofParts ["bin", "ls"]).text = false := by decide
  rw [show Lookup.candidate "/none" "ls" = Path.ofParts ["none", "ls"] by decide,
    show Lookup.candidate "/bin" "ls" = Path.ofParts ["bin", "ls"] by decide]
  constructor
  · refine Bool.eq_false_iff.mpr fun h => ?_
    obtain ⟨place, node, hstat⟩ := World.exists_stat_of_isExecutable h
    rw [FileSystem.stat_eq_iff, hnone] at hstat
    cases hstat
  · simp [World.isExecutable, World.test, FileSystem.test, hnull, hls, FileSystem.isExecutableNode]

/-- A program is completed, and found in the second directory if the first one is not there. -/
theorem commandNames_iff_isFound_equipped :
    (∀ d ∈ ["/none", "/bin"], equipped.Scans d) ∧ Ordinary "ls" ∧
      ∃ names, commandNames equipped ["cd"] ["/none", "/bin"] = .ok names ∧ "ls" ∈ names ∧
        Lookup.resolve equipped ["cd"]
          ["/none", "/bin"] none "ls" = .external (Path.ofParts ["bin", "ls"]) := by
  have hscans : ∀ d ∈ ["/none", "/bin"], equipped.Scans d := by
    intro d hd
    have hfit : ∀ d ∈ ["/none", "/bin"], d ≠ "" ∧ Path.hasNull d = false ∧
        Path.size d ≤ FileSystem.maxPath := by
      decide
    obtain ⟨hne, hnull, hsize⟩ := hfit d hd
    exact World.scans_of_size rfl hne hnull hsize
  have hordinary : Ordinary "ls" := by constructor <;> decide
  obtain ⟨hnone, hls⟩ := isExecutable_equipped
  obtain ⟨names, hnames, hall⟩ := @commandNames_iff_isFound equipped ["cd"] _ hscans none
  obtain ⟨hmem, hpath⟩ := hall "ls" hordinary
  have hresolve := (hpath (by decide) (Path.ofParts ["bin", "ls"])).mpr
    ⟨["/none"], "/bin", [], rfl, by simp [Lookup.lists_iff (hscans "/none" (by simp)) hordinary,
      hnone], (Lookup.lists_iff (hscans "/bin" (by simp)) hordinary).mpr hls, by decide⟩
  exact ⟨hscans, hordinary, names, hnames, hmem.mpr (by rw [hresolve]; rfl), hresolve⟩

end Completion

end CommandShell
