import CommandShell.Proofs.Addition
import CommandShell.Proofs.Builtin.Reply
import CommandShell.Proofs.FileSystem.Growth
import CommandShell.Proofs.FileSystem.Making
import CommandShell.Proofs.Json.Members
import CommandShell.Proofs.Persistence
import CommandShell.Proofs.Text.CodeUnits
import CommandShell.Proofs.Text.Lines
import CommandShell.Settings

/-!
# What changing a setting changes

Whatever the file holds, the settings in force name the chat model first and no key twice. Written
to the file they are read as they are, so that changing one of them changes nothing else. When a
change fails nothing is read from the file but what was read before, unless the path climbs out of a
directory that had to be made, or the system has cut the writing short: then the file holds a part
of the settings, which is no object.

## Main definitions

- `Settings.Proper`: what all settings in force have in common.
- `World.LeadsToFile`: a path leads to a file that the process may read.
- `Settings.Failed`: what a change that failed has left.

## Main statements

- `Settings.ofContent_renderMembers`: settings that have been written are read again.
- `Settings.get_of_set`, `Settings.failed_set`: the settings after a change, and after one that
  failed.
- `Settings.set_changes`: both, for the shell's command as well.
-/

namespace CommandShell

namespace Settings

/-- The key of the chat model. -/
abbrev model : CodeUnits := .ofString "model"

/-- The settings name the chat model first, and no key twice. -/
structure Proper (config : Config) : Prop where
  first : (config.map Prod.fst).head? = some model
  nodup : (config.map Prod.fst).Nodup

/-- What is set last counts. -/
theorem setMember_setMember {α : Type} (members : List (CodeUnits × α)) (key : CodeUnits)
    (value later : α) :
    Json.setMember (Json.setMember members key value) key later =
      Json.setMember members key later := by
  induction members with
  | nil => simp [Json.setMember]
  | cons m rest ih =>
    by_cases hkey : m.1 = key <;> simp [Json.setMember, hkey, ih]

namespace Proper

variable {config : Config}

theorem setMember (h : Proper config) (key value : CodeUnits) :
    Proper (Json.setMember config key value) := by
  refine ⟨?_, Json.nodup_setMember h.nodup key value⟩
  rw [Json.keys_setMember]
  split
  · exact h.first
  · simp [List.head?_append, h.first]

theorem overlay (h : Proper config) (v : Json) : Proper (Settings.overlay config v) := by
  cases v with
  | obj members =>
    unfold Settings.overlay
    induction members generalizing config with
    | nil => exact h
    | cons m rest ih => exact ih (h.setMember m.1 m.2.display)
  | _ => exact h

/-- Written as an object such settings override the defaults by themselves. -/
theorem overlay_eq (h : Proper config) :
    Settings.overlay defaults (.obj (config.map fun m => (m.1, .str m.2))) = config := by
  obtain ⟨value, rest, rfl⟩ : ∃ value rest, config = (model, value) :: rest := by
    have hfirst := h.first
    rcases config with _ | ⟨⟨key, value⟩, rest⟩
    · cases hfirst
    · obtain rfl : key = model := by simpa using hfirst
      exact ⟨value, rest, rfl⟩
  have hrest :=
    Json.foldl_setMember (fun v : CodeUnits => v) rest [(model, value)] (by simpa using h.nodup)
  -- the first member takes the place of the default, and the others stand behind it
  rw [Settings.overlay, List.foldl_map, List.foldl_cons]
  exact hrest.trans (by simp)

end Proper

theorem proper_defaults : Proper defaults := ⟨rfl, by simp [defaults]⟩

theorem proper_ofContent (content : Bytes) : Proper (ofContent content) := by
  unfold ofContent
  split
  · exact proper_defaults
  · split
    · exact proper_defaults
    · exact proper_defaults.overlay _

theorem proper_get (w : World) (p : Path) : Proper (get w p) := by
  unfold get
  split
  · exact proper_defaults
  · exact proper_ofContent _

/-- Settings that have been written to a file are read from it. -/
theorem ofContent_renderMembers {config : Config} (h : Proper config) :
    ofContent (Utf8.encode (Json.renderMembers config)) = config := by
  have hdecode : Utf8.decode? (Utf8.encode (Json.renderMembers config)) =
      some (Json.renderMembers config) := by
    simp [Utf8.decode?]
  unfold ofContent
  rw [hdecode]
  dsimp only
  rw [Text.unifyNewlines_eq_self (Json.not_return_mem_renderMembers config),
    Json.parse_renderMembers h.nodup]
  exact h.overlay_eq

end Settings

/-- A path leads to a file that the process may read. -/
structure World.LeadsToFile (w : World) (p : Path) : Prop where
  file : ∃ place content executable,
    w.files.stat w.directory p = .ok (place, .file content executable)
  readable : w.unreadable? p = none

theorem World.Storable.leadsToFile {w : World} {p : Path} {place : Place} {content : ByteArray}
    {executable : Bool} (h : w.Storable p place (some (.file content executable))) :
      w.LeadsToFile p :=
  ⟨⟨place, content, executable, FileSystem.stat_eq_iff.mpr (FileSystem.locate_follow h.located)⟩,
    h.unreadable?⟩

theorem World.read_eq_ok {w : World} {p : Path} {content : Bytes} : w.read p = .ok content ↔
    Path.hasNull p.text = false ∧ w.unreadable? p = none ∧
      w.files.read w.directory p = .ok content := by
  unfold World.read World.guarded
  cases Path.hasNull p.text <;> cases w.unreadable? p <;> cases w.files.read w.directory p <;> simp

/-- What has been written to a file is read from it. -/
theorem World.read_of_writeText {w w' : World} {p : Path} {text : String}
    (h : w.writeText p .truncate text = (w', .ok ())) (hfile : w'.LeadsToFile p) :
    w'.read p = .ok (Utf8.encode text) := by
  obtain ⟨f, hrefused⟩ | ⟨files, result, place, node, hwritten, hnull, hwrote⟩ :=
    w.writeText_cases p .truncate text
  · cases h.symm.trans hrefused
  · obtain ⟨rfl, hresult⟩ := Prod.mk.inj (h.symm.trans hwritten)
    obtain ⟨place', content', executable', hstat⟩ := hfile.file
    have hplain : FileSystem.IsPlain node := by
      by_contra hdevice
      -- nothing is changed by writing to a device, so the path still leads there
      obtain ⟨rfl, -⟩ := hwrote.device hdevice
      have hfound := FileSystem.stat_eq_iff.mp hstat
      rw [FileSystem.locate_follow hwrote.located] at hfound
      cases hfound
      exact hdevice trivial
    have hlocates : w.Locates p place node := ⟨hnull, hwrote.located, hplain⟩
    obtain ⟨content, executable, hthere, hcontent, -, -⟩ := hlocates.of_writeText_ok h
    rw [hthere.read (by simp) hfile.readable, ← hthere.contentAt, hcontent]
    rfl

namespace Settings

variable {w w' : World} {p : Path} {key : String} {value : CodeUnits}

/-- A setting is changed in the file, after the directories on its way have been made. -/
theorem set_eq_ok (h : set w p key value = (w', .ok ())) : key = "model" ∧
    ∃ files, World.writeText { w with files } p .truncate
      (Json.renderMembers (Json.setMember (get w p) model value)) = (w', .ok ()) := by
  unfold set at h
  split at h
  · cases h
  · next hsettable =>
    obtain rfl : key = "model" := by simpa [settable] using hsettable
    extract_lets config at h
    split at h
    · cases h
    · split at h
      · cases h
      · next files _ =>
        extract_lets v at h
        split at h <;> cases h
        next hwritten => exact ⟨rfl, files, hwritten⟩

/-- After a change the settings are those before with one value changed. -/
theorem get_of_set (h : set w p key value = (w', .ok ())) (hfile : w'.LeadsToFile p) :
    get w' p = Json.setMember (get w p) model value := by
  obtain ⟨-, files, hwritten⟩ := set_eq_ok h
  have hproper := (proper_get w p).setMember model value
  rw [get, World.read_of_writeText hwritten hfile]
  exact ofContent_renderMembers hproper

/-- The settings are the same if the same is read from the file, or nothing both times. -/
theorem get_eq_of_read (h : ∀ content, w'.read p = .ok content ↔ w.read p = .ok content) :
    get w' p = get w p := by
  unfold get
  cases hread : w.read p with
  | ok content => rw [(h content).mpr hread]
  | error f =>
    cases hread' : w'.read p with
    | ok content => exact absurd ((h content).mp hread') (by simp [hread])
    | error f' => rfl

/-- What is read from the file is not changed by directories that are made on its way, if that
fails. -/
theorem read_of_makeDirs_error {files : FileSystem} {e : Errno}
    (hnull : Path.hasNull p.parent.text = false) (h : w.files.makeDirs w.directory
      p.parent.parts.length p.parent = (files, .error e)) (content : Bytes) :
    World.read { w with files } p = .ok content ↔ w.read p = .ok content := by
  by_cases hparts : p.parts = []
  · have hsame : files = w.files := by
      simp only [Path.parent_of_parts_nil hparts, hparts, List.length_nil] at h
      exact (FileSystem.makeDirs_zero_error h).1
    rw [hsame]
  · constructor
    · intro hread
      obtain ⟨place, node, -, hlocate⟩ := FileSystem.locate_of_read (World.read_eq_ok.mp hread).2.2
      obtain ⟨directory, hparent⟩ := FileSystem.stat_parent hlocate hparts
      exact absurd hparent (FileSystem.not_dir_of_makeDirs_error hnull h directory)
    · intro hread
      obtain ⟨place, node, -, hlocate⟩ := FileSystem.locate_of_read (World.read_eq_ok.mp hread).2.2
      rw [FileSystem.makeDirs_of_locate hparts hnull hlocate] at h
      cases h

/-- What a change has left that failed. The settings are those before; or nothing could be read
before, for directories were missing on the way to the file, which have been made, and the way goes
back up from them; or the file has been opened, and the writing of the new settings was cut
short. -/
inductive Failed (w : World) (p : Path) (value : CodeUnits) (w' : World) : Prop where
  | unchanged (same : get w' p = get w p)
  | made (unread : ∀ content, w.read p ≠ .ok content) (some : w'.files ≠ w.files)
      (grown : FileSystem.Grown w.directory p.parent w.files w'.files)
      (climbs : w.files.Grounded → ".." ∈ p.parts)
  | cut {made : FileSystem} (grown : FileSystem.Grown w.directory p.parent w.files made)
      (short : FileSystem.CutShort w.restraint w.directory p .truncate
        (Utf8.encode (Json.renderMembers (Json.setMember (get w p) model value))) made w'.files)

/-- What is left when the directories on the way have been made and the file cannot be opened. -/
theorem failed_of_made {files : FileSystem} (hmade : w.files.makeDirs w.directory
    p.parent.parts.length p.parent = (files, .ok ())) : Failed w p value { w with files } := by
  by_cases hsome : files = w.files
  · rw [hsome]
    exact .unchanged rfl
  · have hunread (content : Bytes) : w.read p ≠ .ok content := by
      intro hread
      have hnone :=
        FileSystem.makeDirs_of_read (World.read_eq_ok.mp hread).2.2 p.parent.parts.length
      rw [hmade] at hnone
      exact hsome hnone
    by_cases hclimbs : w.files.Grounded → ".." ∈ p.parts
    · exact .made hunread hsome (FileSystem.grown_makeDirs hmade) hclimbs
    · -- what has been made is empty, so there is nothing to be read afterwards either
      obtain ⟨hfs, hclimbs⟩ := Classical.not_imp.mp hclimbs
      refine .unchanged (get_eq_of_read fun content => iff_of_false (fun hread => ?_)
        (hunread content))
      exact FileSystem.read_of_made hfs hclimbs hmade hsome content (World.read_eq_ok.mp hread).2.2

/-- What is left after a change that failed. -/
theorem failed_set {f : Failure} (h : set w p key value = (w', .error f)) :
    Failed w p value w' := by
  unfold set at h
  split at h
  · cases h
    exact .unchanged rfl
  · next hsettable =>
    obtain rfl : key = "model" := by simpa [settable] using hsettable
    extract_lets config at h
    split at h
    · cases h
      exact .unchanged rfl
    · next hnull =>
      have hnull : Path.hasNull p.parent.text = false := by simpa using hnull
      split at h
      · next files e hmade =>
        cases h
        exact .unchanged (get_eq_of_read (read_of_makeDirs_error hnull hmade))
      · next files hmade =>
        extract_lets v at h
        split at h <;> cases h
        next hwritten =>
        obtain ⟨left, rfl, hsame | hcut⟩ := World.cutShort_of_writeText hwritten
        · obtain rfl : left = files := hsame
          exact failed_of_made hmade
        · exact .cut (FileSystem.grown_makeDirs hmade) hcut

/-- What comes of writing the settings when the directories on the way are there. -/
theorem set_of_made {files : FileSystem} (hnull : Path.hasNull p.parent.text = false)
    (hmade : w.files.makeDirs w.directory p.parent.parts.length p.parent = (files, .ok ()))
    {result : Except Fault Unit} (hw : World.writeText { w with files } p .truncate
      (Json.renderMembers (Json.setMember (get w p) model value)) = (w', result)) :
    set w p "model" value = (w', result.mapError (Failure.ofFault p)) := by
  have hsettable : (!settable.contains "model") = false := rfl
  unfold set
  simp only [hsettable, Bool.false_eq_true, if_false, hnull, hmade]
  rw [hw]
  rcases result with f | _ <;> rfl

/-- Where something stands, or only the last name is missing, the settings are written at once. -/
theorem set_of_locate {r : Place × Option Node} (hnull : Path.hasNull p.text = false)
    (hparts : p.parts ≠ []) (h : w.files.locate .follow w.directory p = .ok r)
    {result : Except Fault Unit} (hw : w.writeText p .truncate
      (Json.renderMembers (Json.setMember (get w p) model value)) = (w', result)) :
    set w p "model" value = (w', result.mapError (Failure.ofFault p)) := by
  have hparent := Path.hasNull_parent hnull
  exact set_of_made hparent (FileSystem.makeDirs_of_locate hparts hparent h _) hw

/-- The model can be changed if the path leads to a file, or to where one can be made. -/
theorem set_of_storable {place : Place} {node : Option Node} (hp : w.Storable p place node)
    (hparts : p.parts ≠ []) (value : CodeUnits) : ∃ w' content executable,
      set w p "model" value = (w', .ok ()) ∧
      w'.Storable p place (some (.file content executable)) := by
  obtain ⟨w', content, executable, hwritten, hstored, -⟩ := hp.writeText .truncate
    (Json.renderMembers (Json.setMember (get w p) model value))
  exact ⟨w', content, executable,
    set_of_locate hp.named hparts (FileSystem.locate_follow hp.located) hwritten, hstored⟩

/-! ## The builtin -/

section Replies

variable {s : Session} {file : Path}

/-- A request to change a setting is refused before anything is done, or it ends as the change
does. -/
theorem changeSetting_cases (s : Session) (file : Path) (key value : String) :
    let r := Builtin.changeSetting s file key value
    (r.session = s ∧ r.ending ≠ .ok 0) ∨ ∃ result,
      set s.world file key (.ofString value) = (r.session.world, result) ∧
          (r.ending = .ok 0 ↔ result = .ok ()) := by
  unfold Builtin.changeSetting
  extract_lets unknown r
  by_cases hunknown : unknown
  · left
    simp [r, hunknown, Builtin.failure]
  · right
    rcases hset : set s.world file key (.ofString value) with ⟨world, f | _⟩
    · cases f <;> simp [r, hunknown, hset, Builtin.failure, Builtin.faulty]
    · simp [r, hunknown, hset, Builtin.success]

/-- The builtin for settings leaves the session alone unless it is asked to change one. -/
theorem config_cases (capture : Builtin.Capture) (hfile : s.settings = some file)
    (args : List String) : (Builtin.config.run capture s args).session = s ∨
      ∃ key value, args = ["set", key, value] ∧
        Builtin.config.run capture s args = Builtin.changeSetting s file key value := by
  have hs : Builtin.keeper.session (s, []) = s := rfl
  have htaken : ∃ reply, Builtin.runConfig Builtin.keeper args (s, []) =
      Builtin.keeper.take reply (s, []) ∧
      (reply.session = s ∨ ∃ key value, args = ["set", key, value] ∧
        reply = Builtin.changeSetting s file key value) := by
    unfold Builtin.runConfig
    simp only [hs, hfile]
    split
    · next hnone => cases hnone
    · next hsome =>
      cases hsome
      let lines := Builtin.settingLines (get s.world file)
      refine ⟨Builtin.success s (Builtin.emissions .out lines), ?_, .inl rfl⟩
      rw [Builtin.writeLines_keeper, Builtin.take_keeper]
      rfl
    · split <;> exact ⟨_, rfl, .inl rfl⟩
    · next key value hsome =>
      cases hsome
      exact ⟨_, rfl, .inr ⟨key, value, rfl, rfl⟩⟩
    · exact ⟨_, rfl, .inl rfl⟩
  obtain ⟨reply, htake, hreply⟩ := htaken
  have hrun : Builtin.config.run capture s args = reply := Builtin.run_eq_of_take htake
  rw [hrun]
  exact hreply

/-- What is left by the builtin for settings if it fails. -/
theorem failed_config (capture : Builtin.Capture) (hfile : s.settings = some file)
    {args : List String} (h : (Builtin.config.run capture s args).ending ≠ .ok 0) :
    Failed s.world file (.ofString (args[2]?.getD ""))
      (Builtin.config.run capture s args).session.world := by
  obtain hsame | ⟨key, value, rfl, hchange⟩ := config_cases capture hfile args
  · exact .unchanged (by rw [hsame])
  · rw [hchange] at h ⊢
    obtain ⟨hsame, -⟩ | ⟨result, hset, hending⟩ := changeSetting_cases s file key value
    · exact .unchanged (by rw [hsame])
    · cases result with
      | ok => exact absurd (hending.mpr rfl) h
      | error f => exact failed_set hset

end Replies

/-- After the chat model has been set to some text, and the path leads to a file that can be read,
the settings in it are those before with one value changed: the keys stay, in their order, and so do
the other values, and a later change takes the place of an earlier one. The text is read as it was
given unless a high half of a pair stands right before a low one in it. What a change has left that
failed is said by `Failed`, also if the builtin refused it. -/
theorem set_changes (w : World) (p : Path) (key : String) (v : List CodeUnits.Letter)
    (hv : ∀ l ∈ v, l.IsSound) :
    (∀ w', set w p key (.ofLetters v) = (w', .ok ()) → key = "model" ∧ (w'.LeadsToFile p →
      get w' p = Json.setMember (get w p) model (.ofLetters v) ∧
      (get w' p).map Prod.fst = (get w p).map Prod.fst ∧
      (∃ value, Json.member? (get w' p) model = some value ∧
        (value.letters = v ↔ CodeUnits.meets v = false)) ∧
      (∀ other, other ≠ model → Json.member? (get w' p) other = Json.member? (get w p) other) ∧
      ∀ later w'', set w' p key later = (w'', .ok ()) → w''.LeadsToFile p →
        get w'' p = Json.setMember (get w p) model later)) ∧
    (∀ w' f, set w p key (.ofLetters v) = (w', .error f) → Failed w p (.ofLetters v) w') ∧
    ∀ (capture : Builtin.Capture) (s : Session) (args : List String), s.world = w →
      s.settings = some p → (Builtin.config.run capture s args).ending ≠ .ok 0 →
        Failed w p (.ofString (args[2]?.getD ""))
          (Builtin.config.run capture s args).session.world := by
  refine ⟨fun w' hset => ⟨(set_eq_ok hset).1, fun hfile => ?_⟩, fun w' f hset =>
    failed_set hset, ?_⟩
  · have hget := get_of_set hset hfile
    have hmem : model ∈ (get w p).map Prod.fst := List.mem_of_head? (proper_get w p).first
    refine ⟨hget, ?_, ⟨.ofLetters v, ?_, CodeUnits.letters_ofLetters_iff hv⟩,
      fun other hother => ?_, fun later w'' hlater hfile' => ?_⟩
    · rw [hget, Json.keys_setMember, if_pos hmem]
    · rw [hget, Json.member?_setMember_self]
    · rw [hget, Json.member?_setMember_of_ne _ _ hother]
    · rw [get_of_set hlater hfile', hget, setMember_setMember]
  · rintro capture s args rfl hsettings hending
    exact failed_config capture hsettings hending

/-- The model is changed twice in a file with escapes, a key that comes twice and values that are no
texts, first to a text that ends with half of a pair, and another key is refused. -/
theorem set_changes_twice :
    let content := "\x7b\"b\": 1, \"\\ud800\": [null], \"b\": \"\\u00e9\\n\"\x7d"
    let w := History.filed content
    let p := Path.ofText "/h"
    let v : List CodeUnits.Letter := [.char 'x', .half 0xD83D]
    (get w p).map Prod.fst = [model, .ofString "b", [0xD800]] ∧
      (∃ w' w'', set w p "model" (.ofLetters v) = (w', .ok ()) ∧
        set w' p "model" (.ofString "y\"") = (w'', .ok ()) ∧
        get w'' p = Json.setMember (get w p) model (.ofString "y\"") ∧
        ∃ value, Json.member? (get w' p) model = some value ∧ value.letters = v) ∧
      ∃ w' f, set w p "b" (.ofLetters v) = (w', .error f) ∧ Failed w p (.ofLetters v) w' := by
  intro content w p v
  have hv : ∀ l ∈ v, l.IsSound := by
    simp only [v, List.mem_cons, List.not_mem_nil, or_false, forall_eq_or_imp, forall_eq]
    exact ⟨trivial, .inl rfl⟩
  have hfile : w.Storable p ["h"] (some (.file (pack (Utf8.encode content)) false)) :=
    History.storable_filed content
  have hparts : p.parts ≠ [] := by decide
  have hread : w.read p = .ok (Utf8.encode content) := by
    rw [hfile.read (by simp) hfile.unreadable?, FileSystem.held, unpack_pack]
  refine ⟨?_, ?_, ?_⟩
  · rw [get, hread]
    decide +kernel
  · obtain ⟨w', _, _, hset, hfile'⟩ := set_of_storable hfile hparts (.ofLetters v)
    obtain ⟨w'', _, _, hset', hfile''⟩ := set_of_storable hfile' hparts (.ofString "y\"")
    obtain ⟨-, -, ⟨value, hvalue, hback⟩, -, hlater⟩ :=
      ((set_changes w p "model" v hv).1 w' hset).2 hfile'.leadsToFile
    exact ⟨w', w'', hset, hset', hlater _ w'' hset' hfile''.leadsToFile, value, hvalue,
      hback.mpr rfl⟩
  · have hset : set w p "b" (.ofLetters v) = (w, .error (.unsettable "b")) := rfl
    exact ⟨w, _, hset, (set_changes w p "b" v hv).2.1 w _ hset⟩

/-- A device that keeps nothing, where the settings would be. -/
def device : World where
  files := { nodes := [(["h"], .null)] }

/-- A disk that takes nothing more. -/
def full : World :=
  { History.filed "\x7b\"model\": \"x\"\x7d" with
    restraint := fun _ => { limit := some (0, .noSpace) } }

/-- Settings that may be read but not written. -/
def locked : World :=
  { History.filed "\x7b\"model\": \"x\"\x7d" with
    restraint := fun _ => { unwritable := some .permissionDenied } }

theorem set_device : set device (Path.ofText "/h") "model" (.ofString "x") = (device, .ok ()) ∧
    Json.member? (get device (Path.ofText "/h")) model ≠ some (.ofString "x") := by
  have hnull : Path.hasNull (Path.ofText "/h").text = false := by decide
  have hname : ¬ FileSystem.maxName < (Utf8.encode "h").length := by decide
  have hplace (purpose : FileSystem.Purpose) :
      device.files.locate purpose device.directory (Path.ofText "/h") =
        .ok (["h"], some .null) := by
    rw [FileSystem.locate, if_neg (by decide), show Path.ofText "/h" = Path.ofParts ["h"] by decide]
    simp [device, hname, Path.ofParts, Path.isAbsolute, FileSystem.walk, FileSystem.get?]
  have hstat : device.files.stat device.directory (Path.ofText "/h") = .ok (["h"], .null) := by
    rw [FileSystem.stat, hplace, FileSystem.present]
  have hread : device.read (Path.ofText "/h") = .ok [] := by
    have hfree : device.unreadable? (Path.ofText "/h") = none := by
      rw [World.unreadable?, hstat]
      rfl
    refine World.read_eq_ok.mpr ⟨hnull, hfree, ?_⟩
    rw [FileSystem.read, hstat]
    rfl
  have hopen : device.files.openFile device.directory (Path.ofText "/h") .truncate =
      .ok ({ place := ["h"] }, device.files) := by
    rw [FileSystem.openFile, hplace]
    rfl
  have hwritten (text : String) :
      device.writeText (Path.ofText "/h") .truncate text = (device, .ok ()) := by
    rw [World.writeText, if_neg (by simp [hnull]), FileSystem.writeFile, hopen]
    rfl
  refine ⟨set_of_locate hnull (by decide) (hplace .follow) (hwritten _), ?_⟩
  rw [get, hread]
  decide +kernel

theorem set_full : ∃ w' f, set full (Path.ofText "/h") "model" (.ofString "y") = (w', .error f) ∧
    get w' (Path.ofText "/h") ≠ get full (Path.ofText "/h") := by
  have hfile : full.Locates (Path.ofText "/h") ["h"] _ :=
    (History.storable_filed "\x7b\"model\": \"x\"\x7d").toLocates.under full.restraint
  have hreadable (w : World) (hw : w.restraint = full.restraint) :
      w.unreadable? (Path.ofText "/h") = none := by
    unfold World.unreadable?
    rw [hw]
    split <;> rfl
  have hget : get full (Path.ofText "/h") = [(model, .ofString "x")] := by
    rw [get, hfile.read (by simp) (hreadable full rfl), FileSystem.held, unpack_pack]
    decide +kernel
  have htaken : (full.restraint ["h"]).take 0 (Utf8.encode (Json.renderMembers
      (Json.setMember (get full (Path.ofText "/h")) model (.ofString "y")))) =
        ([], .error .noSpace) := by
    rw [hget]
    decide +kernel
  obtain ⟨w', content, executable, hwritten, hthere, hkept, hcontent, -⟩ := hfile.writeText rfl
    .truncate (Json.renderMembers
      (Json.setMember (get full (Path.ofText "/h")) model (.ofString "y")))
  rw [show FileSystem.kept .truncate _ = [] from rfl, List.length_nil, htaken] at hwritten hcontent
  refine ⟨w', _, set_of_locate (by decide) (by decide) (FileSystem.locate_follow hfile.located)
    hwritten, ?_⟩
  rw [hget, get, hthere.read (by simp) (hreadable w' hkept), ← hthere.contentAt, hcontent]
  decide +kernel

/-- A way to the settings through a directory that is not there. -/
def roundabout : Path := Path.ofParts ["d", "..", "h"]

/-- The locked settings with that directory. -/
def paved : FileSystem := { locked.files with nodes := locked.files.nodes ++ [(["d"], .dir)] }

theorem locate_roundabout :
    locked.files.locate .follow locked.directory roundabout = .error .notFound := by
  have hd : ¬ FileSystem.maxName < (Utf8.encode "d").length := by decide
  rw [FileSystem.locate, if_neg (by decide)]
  simp [locked, roundabout, History.filed, hd, Path.ofParts, Path.isAbsolute, FileSystem.walk,
    FileSystem.get?]

theorem get_roundabout : get locked roundabout = defaults := by
  unfold get
  split
  · rfl
  · next heq =>
    have hfile := (World.read_eq_ok.mp heq).2.2
    rw [FileSystem.read, FileSystem.stat, locate_roundabout] at hfile
    cases hfile

theorem makeDirs_roundabout :
    locked.files.makeDirs locked.directory 2 roundabout.parent = (paved, .ok ()) := by
  have hd : ¬ FileSystem.maxName < (Utf8.encode "d").length := by decide
  have houter : locked.files.makeDir locked.directory roundabout.parent = .error .notFound := by
    have hlook : locked.files.locate .look locked.directory roundabout.parent =
        .error .notFound := by
      rw [FileSystem.locate, if_neg (by decide)]
      simp [locked, roundabout, History.filed, hd, Path.ofParts, Path.parent, Path.isAbsolute,
        FileSystem.walk, FileSystem.get?]
    rw [FileSystem.makeDir, hlook]
  have hinner : locked.files.makeDir locked.directory roundabout.parent.parent = .ok paved := by
    have hlook : locked.files.locate .look locked.directory roundabout.parent.parent =
        .ok (["d"], none) := by
      rw [FileSystem.locate, if_neg (by decide)]
      simp [locked, roundabout, History.filed, hd, Path.ofParts, Path.parent, Path.isAbsolute,
        FileSystem.walk, FileSystem.get?]
    rw [FileSystem.makeDir, hlook]
    rfl
  have hthere (purpose : FileSystem.Purpose) (hpurpose : purpose ≠ .create) :
      paved.locate purpose locked.directory roundabout.parent = .ok ([], some .dir) := by
    rw [FileSystem.locate, if_neg (by decide)]
    simp [paved, locked, roundabout, History.filed, hd, Path.ofParts, Path.parent, Path.isAbsolute,
      FileSystem.walk, FileSystem.get?]
  have hagain : paved.makeDir locked.directory roundabout.parent = .error .alreadyExists := by
    rw [FileSystem.makeDir, hthere .look (by decide)]
  have haccepted : paved.acceptDir locked.directory roundabout.parent .alreadyExists = .ok () :=
    FileSystem.acceptDir_of_dir (by decide)
      (FileSystem.stat_eq_iff.mpr (hthere .follow (by decide))) _
  rw [FileSystem.makeDirs, houter]
  simp only
  rw [FileSystem.makeDirs, hinner]
  simp only
  rw [hagain]
  simp only
  rw [haccepted]

/-- With the directory that is made the settings are found, which may not be written. -/
theorem set_roundabout : ∃ w' f, set locked roundabout "model" (.ofString "y") = (w', .error f) ∧
    get w' roundabout ≠ get locked roundabout := by
  have hd : ¬ FileSystem.maxName < (Utf8.encode "d").length := by decide
  have hh : ¬ FileSystem.maxName < (Utf8.encode "h").length := by decide
  have hplace : World.Locates { locked with files := paved } roundabout ["h"]
      (some (.file (pack (Utf8.encode "\x7b\"model\": \"x\"\x7d")) false)) := by
    refine ⟨by decide, ?_, trivial⟩
    rw [FileSystem.locate, if_neg (by decide)]
    simp [paved, locked, roundabout, History.filed, hd, hh, Path.ofParts, Path.isAbsolute,
      FileSystem.walk, FileSystem.get?]
  have hrefused := hplace.writeText_unwritable (e := .permissionDenied) rfl .truncate
    (Json.renderMembers (Json.setMember (get locked roundabout) model (.ofString "y")))
  refine ⟨_, _, set_of_made (by decide) makeDirs_roundabout hrefused, ?_⟩
  have hfree : World.unreadable? { locked with files := paved } roundabout = none := by
    unfold World.unreadable?
    split <;> rfl
  rw [get_roundabout, get, hplace.read (by simp) hfree, FileSystem.held, unpack_pack]
  decide +kernel

theorem set_pair : ∃ w' value, set (History.filed "") (Path.ofText "/h") "model"
      (.ofLetters [.half 0xD83D, .half 0xDE00]) = (w', .ok ()) ∧
    Json.member? (get w' (Path.ofText "/h")) model = some value ∧
    value.letters ≠ [.half 0xD83D, .half 0xDE00] := by
  obtain ⟨w', _, _, hset, hfile⟩ := set_of_storable (History.storable_filed "") (by decide)
    (.ofLetters [.half 0xD83D, .half 0xDE00])
  refine ⟨w', .ofLetters [.half 0xD83D, .half 0xDE00], hset, ?_, by decide⟩
  rw [get_of_set hset hfile.leadsToFile, Json.member?_setMember_self]

/-- A device keeps no setting that has been changed; on a full disk a change that fails has emptied
the file; settings that may not be written are found only with a directory that the change has made;
and two halves of a pair are read as one character. -/
theorem set_not_read_back :
    (set device (Path.ofText "/h") "model" (.ofString "x") = (device, .ok ()) ∧
        Json.member? (get device (Path.ofText "/h")) model ≠ some (.ofString "x")) ∧
      (∃ w' f, set full (Path.ofText "/h") "model" (.ofString "y") = (w', .error f) ∧
        get w' (Path.ofText "/h") ≠ get full (Path.ofText "/h")) ∧
      (∃ w' f, set locked roundabout "model" (.ofString "y") = (w', .error f) ∧
        get w' roundabout ≠ get locked roundabout) ∧
      ∃ w' value, set (History.filed "") (Path.ofText "/h") "model"
          (.ofLetters [.half 0xD83D, .half 0xDE00]) = (w', .ok ()) ∧
        Json.member? (get w' (Path.ofText "/h")) model = some value ∧
        value.letters ≠ [.half 0xD83D, .half 0xDE00] :=
  ⟨set_device, set_full, set_roundabout, set_pair⟩

end Settings

end CommandShell
