import CommandShell.Proofs.FileSystem.Rooted
import CommandShell.Proofs.Whereabouts

/-!
# Paths that users name

A user names a path by a text. The home directory is put for a tilde as a text, and only then is the
text cut into names; what it means is seen from the working directory. So that a resolved path means
itself when its text is resolved again, a path has to be the one that its text names, and it has to
start at the root. Both hold as long as the working directory starts at the root, and `cd` leads
nowhere else, not even by a home directory that is named from the directory of the process.

## Main definitions

* `Session.Resolves`: what the texts mean by which users name paths.

## Main statements

* `Session.Grounded.resolves`: they mean this in a session whose working directory starts at the
  root.
* `Session.whereabouts_grounded`: `cd` leaves the working directory such a one.
* `Shell.resolvePath_executeAll`: so does every sequence of lines.
-/

namespace CommandShell

namespace Session

variable {s : Session} {path : String}

/-- Without a tilde in front a text is taken as it is. -/
theorem expandHome_of_head? (h : path.toList.head? ≠ some '~') : s.expandHome path = path := by
  unfold expandHome
  split <;> simp_all

/-- So is one with a tilde that stands neither alone nor before a slash. -/
theorem expandHome_of_not_prefix (hne : path ≠ "~") (h : ¬ ['~', '/'] <+: path.toList) :
    s.expandHome path = path := by
  unfold expandHome
  split
  · next heq => exact absurd (String.toList_inj.mp heq) hne
  · next heq => exact absurd (by simp [heq]) h
  · rfl

/-- The home directory is a path that a text names. -/
theorem sound_home {home : Path} (h : s.home = some home) : home.Sound := by
  obtain ⟨value, -, rfl⟩ := Option.map_eq_some_iff.mp h
  exact Path.sound_ofText value

theorem sound_resolvePath (h : s.cwd.Sound) (path : String) : (s.resolvePath path).Sound :=
  h.join (Path.sound_ofText _)

/-- The text of a path from the root means the path. -/
theorem resolvePath_text {p : Path} (habsolute : p.isAbsolute = true) (hsound : p.Sound) :
    s.resolvePath p.text = p := by
  have hhead : p.text.toList.head? ≠ some '~' := by
    obtain ⟨slashes, -, htext⟩ := Path.toList_text habsolute
    simp [htext]
  rw [resolvePath, expandHome_of_head? hhead, Path.ofText_text hsound,
    Path.join_of_isAbsolute habsolute]

/-- A tilde alone means the home directory, as seen from the working directory. -/
theorem resolvePath_tilde {home : Path} (h : s.home = some home) :
    s.resolvePath "~" = s.cwd.join home := by
  have hexpand : s.expandHome "~" = home.text := by
    rw [expandHome, h]
    rfl
  rw [resolvePath, hexpand, Path.ofText_text (sound_home h)]

/-- What is named from the home directory has the names of the home directory in front. -/
theorem parts_resolvePath_home {home : Path} (h : s.home = some home) (rest : String) :
    (s.resolvePath ("~/" ++ rest)).parts = (s.cwd.join home).parts ++ Path.partsOf rest := by
  have hhome := Path.ofText_text (sound_home h)
  have hexpand : s.expandHome ("~/" ++ rest) =
      String.ofList (home.text.toList ++ '/' :: rest.toList) := by
    rw [expandHome, h]
    simp
  have hparts : (Path.ofText (String.ofList (home.text.toList ++ '/' :: rest.toList))).parts =
      home.parts ++ Path.partsOf rest := by
    rw [Path.ofText, Path.partsOf_append, String.ofList_toList, String.ofList_toList]
    exact congrArg (·.parts ++ Path.partsOf rest) hhome
  have hroot : (Path.ofText (String.ofList (home.text.toList ++ '/' :: rest.toList))).isAbsolute =
      home.isAbsolute := by
    rw [Bool.eq_iff_iff, Path.isAbsolute_ofText_iff, String.toList_ofList,
      List.head?_append_of_ne_nil]
    · rw [← Path.isAbsolute_ofText_iff, hhome]
    · intro hnil
      rw [String.toList_eq_nil_iff.mp hnil] at hhome
      rw [← hhome] at hnil
      exact absurd hnil (by decide)
  rw [resolvePath, hexpand, Path.join, Path.join, hroot]
  split
  · exact hparts
  · simp only [hparts, List.append_assoc]

/-- A session whose working directory starts at the root and is cut into names, as that of its
process is. -/
structure Grounded (s : Session) : Prop where
  cwd : s.cwd.isAbsolute = true
  names : s.cwd.Sound
  directory : ∀ name ∈ s.world.directory, Path.IsName name

/-- Wherever `cd` leads, even by a home directory that is seen from the directory of the process, is
a place that is named from the root. -/
theorem whereabouts_grounded : Whereabouts Grounded where
  of_eq := by
    intro s s' _ _ hcwd hdirectory h
    exact ⟨hcwd ▸ h.cwd, hcwd ▸ h.names, hdirectory ▸ h.directory⟩
  cd := by
    intro s args h
    obtain ⟨cwd, hs, rfl | ⟨-, path, hpath, -, rfl⟩⟩ := Builtin.session_runCd s args
    · rwa [hs]
    · have hsound : path.Sound := by
        obtain hhome | ⟨target, rfl⟩ := Builtin.destination_cases hpath
        · exact sound_home hhome
        · exact sound_resolvePath h.names target
      rw [hs]
      exact ⟨rfl, FileSystem.isName_of_mem_realPlace (.inr h.directory) hsound, h.directory⟩

/-- What the texts mean by which users name paths. -/
structure Resolves (s : Session) : Prop where
  absolute : ∀ path, (s.resolvePath path).isAbsolute = true
  fixed : ∀ path, s.resolvePath (s.resolvePath path).text = s.resolvePath path
  rooted : ∀ path, path.toList.head? = some '/' → s.resolvePath path = Path.ofText path
  /-- A tilde is a name like others unless there is a home directory and it stands alone or before a
  slash. -/
  relative : ∀ path, path.toList.head? ≠ some '/' → s.home = none ∨ path ≠ "~" ∧
    ¬ ['~', '/'] <+: path.toList → s.resolvePath path = s.cwd.join (Path.ofText path) ∧
      (s.resolvePath path).parts = s.cwd.parts ++ Path.partsOf path
  tilde : ∀ home, s.home = some home → s.resolvePath "~" = s.cwd.join home
  inHome : ∀ home, s.home = some home → ∀ rest,
    (s.resolvePath ("~/" ++ rest)).parts = (s.cwd.join home).parts ++ Path.partsOf rest

theorem Grounded.resolves (h : s.Grounded) : s.Resolves where
  absolute _ := Path.isAbsolute_join h.cwd _
  fixed path := resolvePath_text (Path.isAbsolute_join h.cwd _) (sound_resolvePath h.names path)
  rooted path hroot := by
    have hexpand : s.expandHome path = path := expandHome_of_head? (by simp [hroot])
    rw [resolvePath, hexpand, Path.join_of_isAbsolute (Path.isAbsolute_ofText hroot)]
  relative path hrelative hplain := by
    have hexpand : s.expandHome path = path := by
      obtain hhome | ⟨hne, hprefix⟩ := hplain
      · simp [expandHome, hhome]
      · exact expandHome_of_not_prefix hne hprefix
    have hnot : (Path.ofText path).isAbsolute = false := by
      rw [Bool.eq_false_iff, ne_eq, Path.isAbsolute_ofText_iff]
      exact hrelative
    rw [resolvePath, hexpand]
    refine ⟨rfl, ?_⟩
    simp only [Path.join, hnot, Bool.false_eq_true, if_false]
    rfl
  tilde _ := resolvePath_tilde
  inHome _ := parts_resolvePath_home

/-- The home directory is the one that `HOME` names if it names one. -/
theorem home_of_get? {value : String} (h : s.environment.get? "HOME" = some value)
    (hne : value ≠ "") : s.home = some (Path.ofText value) := by
  simp [home, Environment.nonempty?, h, hne]

end Session

namespace Shell

open Session

/-- A session that starts in a working directory named from the root is in such a one after all
lines, and then the paths that a user names start at the root and mean themselves again. That the
working directory and that of the process are those of texts is no more than that they are paths cut
into names. -/
theorem resolvePath_executeAll {s : Session} {start seat : String}
    (hcwd : s.cwd = Path.ofText start) (hroot : s.cwd.isAbsolute = true)
    (hseat : Path.ofParts s.world.directory = Path.ofText seat) (lines : List String) :
    let s' := executeAll s lines
    s'.cwd.isAbsolute = true ∧ s'.Resolves ∧
      ∀ value, s.environment.get? "HOME" = some value → value ≠ "" →
        s'.resolvePath "~" = s'.cwd.join (Path.ofText value) := by
  intro s'
  have hstart : s.Grounded := {
    cwd := hroot
    names := hcwd ▸ Path.sound_ofText start
    directory := by
      have hsound : (Path.ofParts s.world.directory).Sound := hseat ▸ Path.sound_ofText seat
      exact hsound }
  have hreached : s'.Grounded := whereabouts_grounded.executeAll lines hstart
  refine ⟨hreached.cwd, hreached.resolves, fun value hvalue hne => ?_⟩
  have hget : s'.environment.get? "HOME" = some value := by rwa [environment_executeAll]
  exact resolvePath_tilde (home_of_get? hget hne)

/-- A session at the root whose home directory is named from where one is, with a slash too many. -/
def homing : Session where
  environment := ⟨[("HOME", "h//x")]⟩
  cwd := Path.ofParts []
  world := { files := { nodes := [(["h"], .dir), (["h", "x"], .dir)] } }
  machine := ⟨fun _ _ _ => .error .notFound⟩

theorem cwd_homing : (executeAll homing ["cd"]).cwd = Path.ofParts ["h", "x"] := by
  have hwords : Redirection.extract (Word.tokenize "cd") = .ok ([⟨"cd", false⟩], {}) := by decide
  have hparse (s : Session) : Stage.parse s (Text.strip "cd") =
      .ok [{ command := "cd", args := [], target := .builtin .cd, text := "cd" }] :=
    Stage.parse_builtin s (by decide) (by decide) hwords rfl
  have hh : ¬ FileSystem.maxName < (Utf8.encode "h").length := by decide
  have hx : ¬ FileSystem.maxName < (Utf8.encode "x").length := by decide
  have hfirst : homing.world.files.locate .look [] ⟨.relative, ["h"]⟩ = .ok (["h"], some .dir) := by
    rw [FileSystem.locate, if_neg (by decide)]
    simp [homing, hh, Path.isAbsolute, FileSystem.walk, FileSystem.get?]
  have hplace (purpose : FileSystem.Purpose) :
      homing.world.files.locate purpose [] ⟨.relative, ["h", "x"]⟩ =
        .ok (["h", "x"], some .dir) := by
    rw [FileSystem.locate, if_neg (by decide)]
    simp [homing, hh, hx, Path.isAbsolute, FileSystem.walk, FileSystem.get?]
  have hstat : homing.world.files.stat [] ⟨.relative, ["h", "x"]⟩ = .ok (["h", "x"], .dir) := by
    rw [FileSystem.stat, hplace, FileSystem.present]
  have hagain : homing.world.files.stat [] (Path.ofParts ["h", "x"]) = .ok (["h", "x"], .dir) := by
    rw [FileSystem.stat, FileSystem.locate, if_neg (by decide)]
    simp [homing, hh, hx, Path.ofParts, Path.isAbsolute, FileSystem.walk, FileSystem.get?,
      FileSystem.present]
  have hreal : homing.world.files.realPlace [] ⟨.relative, ["h", "x"]⟩ = ["h", "x"] := by
    simp [FileSystem.realPlace, FileSystem.realPath, FileSystem.linkAt?, Path.isAbsolute,
      Path.child, hfirst, hplace, Path.placeFrom, Path.follow]
  have hhome : homing.home = some ⟨.relative, ["h", "x"]⟩ := by decide
  have hnull : Path.hasNull (Path.text ⟨.relative, ["h", "x"]⟩) = false := by decide
  have hdirectory : homing.world.directory = [] := rfl
  rw [executeAll_cons, executeAll_nil, cwd_execute_cd (by decide) (by decide) (hparse _) rfl rfl]
  simp only [Builtin.runCd, String.intercalate_nil, hhome, Builtin.enter, World.exists?,
    World.isDir, World.resolve,
    World.test, FileSystem.test, hnull, hdirectory, hstat, hreal, hagain]
  rfl

/-- The home directory is seen from where one has gone, and what has been resolved stays as it
is. -/
theorem resolvePath_executeAll_homing :
    let s := homing
    let s' := executeAll s ["cd"]
    (s.cwd = Path.ofText "/" ∧ s.cwd.isAbsolute = true ∧
      Path.ofParts s.world.directory = Path.ofText "/" ∧
        s.environment.get? "HOME" = some "h//x") ∧
      s'.cwd = Path.ofText "/h/x" ∧ s'.resolvePath "~" = Path.ofText "/h/x/h/x" ∧
      s'.resolvePath "a//./b" = Path.ofText "/h/x/a/b" ∧
        s'.resolvePath "/h/x/a/b" = Path.ofText "/h/x/a/b" := by
  intro s s'
  have hcwd : s.cwd = Path.ofText "/" := by decide
  have hroot : s.cwd.isAbsolute = true := by decide
  have hseat : Path.ofParts s.world.directory = Path.ofText "/" := by decide
  have hvalue : s.environment.get? "HOME" = some "h//x" := by decide
  obtain ⟨-, hresolves, hhome⟩ := resolvePath_executeAll hcwd hroot hseat ["cd"]
  have hgone : s'.cwd = Path.ofText "/h/x" := cwd_homing.trans (by decide)
  have htilde := hhome "h//x" hvalue (by decide)
  have hrelative := (hresolves.relative "a//./b" (by decide) (.inr (by decide))).1
  have hfixed := hresolves.fixed "a//./b"
  rw [cwd_homing] at htilde hrelative
  rw [hrelative] at hfixed
  have hjoined : (Path.ofParts ["h", "x"]).join (Path.ofText "a//./b") =
      Path.ofText "/h/x/a/b" := by decide
  have htext : (Path.ofText "/h/x/a/b").text = "/h/x/a/b" := by decide
  rw [hjoined] at hrelative hfixed
  rw [htext] at hfixed
  exact ⟨⟨hcwd, hroot, hseat, hvalue⟩, hgone, htilde.trans (by decide), hrelative, hfixed⟩

end Shell

end CommandShell
