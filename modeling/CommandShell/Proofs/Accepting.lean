import CommandShell.Proofs.Extraction
import CommandShell.Proofs.FileSystem.Making
import CommandShell.Proofs.Help.Answer
import CommandShell.Proofs.Literal
import CommandShell.Proofs.Proposing

/-!
# Completions that are accepted

A completion is put into the line as the name is, without quotes. So the line is one word, and the
command that was offered, just if the name stands for itself; and it runs the command just if the
name is in addition no operator, holds no pipe and has no blanks at its ends.

## Main definitions

* `Stage.Runnable`: the names that a line of their own runs.

## Main statements

* `Stage.parse_strip_iff`: the lines that run a command of a name, among those that consist of the
  name.
* `Stage.targetOf_of_lists`: a name that is known stands for a builtin or for a file.
* `Completion.not_one_word`: a name with a space is offered, and its line is two words.
* `Completion.accepted_runs`: what becomes of a line with a completion.
-/

namespace CommandShell

open CommandShell.Path (Ordinary)

theorem Redirection.isArgument_of_mem {parts : List Part} {w : Word}
    (h : w ∈ parts.flatMap Part.arguments) : IsArgument w := by
  obtain ⟨p, -, hw⟩ := List.mem_flatMap.mp h
  cases p with
  | argument w' plain =>
    obtain rfl := List.mem_singleton.mp hw
    exact plain
  | _ => cases hw

namespace Stage

/-! ## A line that is a name -/

/-- A name that a line consisting of it runs. -/
structure Runnable (name : String) : Prop where
  literal : Word.IsLiteral name.toList
  pipe : '|' ∉ name.toList
  strip_eq : Text.strip name = name
  argument : Redirection.IsArgument (Word.bare name)

/-- The stage that a name stands for without anything else. -/
def ofName (s : Session) (name : String) : Stage :=
  { command := name, args := [], target := targetOf s name, text := name }

variable {s : Session} {name : String}

theorem Runnable.tokenize (h : Runnable name) : Word.tokenize name = [Word.bare name] :=
  Word.tokenize_of_isLiteral h.literal

theorem Runnable.ne_empty (h : Runnable name) : name ≠ "" := by
  rintro rfl
  exact h.literal.ne_nil rfl

theorem ofSegment_of_runnable (h : Runnable name) : ofSegment s name = .ok (ofName s name) := by
  have hextract : Redirection.extract (Word.tokenize name) = .ok ([Word.bare name], {}) := by
    rw [h.tokenize]
    exact Redirection.extract_parts [.argument _ h.argument]
  rw [ofSegment, hextract]
  rfl

theorem parse_of_runnable (h : Runnable name) : parse s name = .ok [ofName s name] := by
  have hblank : Text.isBlankText name = false := by
    rw [← h.strip_eq]
    exact Text.isBlankText_strip (h.strip_eq.symm ▸ h.ne_empty)
  have hcut : (Word.cut .plain name.toList).length = 1 := by
    rw [Word.length_cut_of_literal h.literal.ordinary h.literal.backslash,
      List.count_eq_zero_of_not_mem h.pipe]
  rw [parse_of_not_blank hblank, Word.segments_of_length hcut, h.strip_eq,
    if_neg (by simpa using Ne.symm h.ne_empty), ofSegments, ofSegment_of_runnable h]
  rfl

/-- The command of a stage is a word of its segment that is no operator. -/
theorem command_of_ofSegment {segment : String} {stage : Stage}
    (h : ofSegment s segment = .ok stage) :
    ∃ w ∈ Word.tokenize segment, w.text = stage.command ∧ Redirection.IsArgument w := by
  unfold ofSegment at h
  split at h
  · cases h
  · cases h
  · next w args r hextract =>
    cases h
    obtain ⟨parts, hwords, hargs, -⟩ := (Redirection.extract_eq_ok_iff _ _ _).mp hextract
    have hw : w ∈ parts.flatMap Redirection.Part.arguments := hargs ▸ List.mem_cons_self ..
    exact ⟨w, hwords ▸ (Redirection.arguments_sublist parts).subset hw, rfl,
      Redirection.isArgument_of_mem hw⟩

/-- A line that consists of a name runs a command of that name only if nothing in the name is read
as anything else. -/
theorem runnable_of_parse {stage : Stage} (hparse : parse s (Text.strip name) = .ok [stage])
    (hcommand : stage.command = name) : Runnable name := by
  have hblank : Text.isBlankText (Text.strip name) = false := by
    refine Bool.eq_false_iff.mpr fun hblank => ?_
    rw [(parse_eq_nil_iff s _).mpr hblank] at hparse
    cases hparse
  rw [parse_of_not_blank hblank] at hparse
  split at hparse
  · cases hparse
  have hone : (Word.cut .plain (Text.strip name).toList).length = 1 := by
    rw [← Word.length_segments, ← texts_ofSegments hparse]
    rfl
  rw [Word.segments_of_length hone] at hparse
  have hstage : ofSegment s (Text.strip (Text.strip name)) = .ok stage := by
    rw [ofSegments] at hparse
    split at hparse
    · cases hparse
    · next hstage =>
      cases hparse
      exact hstage
  obtain ⟨w, hw, hwtext, hargument⟩ := command_of_ofSegment hstage
  -- the word is as long as the name, so no character of the line can have been lost
  have hlength := Text.length_strip_le name
  have hlength' := Text.length_strip_le (Text.strip name)
  obtain ⟨hliteral, rfl⟩ := Word.isLiteral_of_mem_tokenize hw (by rw [hwtext, hcommand]; omega)
  have hname : Text.strip (Text.strip name) = name := hwtext.trans hcommand
  have hstrip : Text.strip name = name := Text.strip_eq_of_length_le (by rwa [hname] at hlength')
  rw [hname] at hliteral hargument
  rw [hstrip, Word.length_cut_of_literal hliteral.ordinary hliteral.backslash] at hone
  exact ⟨hliteral, List.count_eq_zero.mp (by omega), hstrip, hargument⟩

/-- Of the lines that consist of a name and blanks, those run the command of that name of which the
name is runnable. -/
theorem parse_strip_iff :
    (∃ stage, parse s (Text.strip name) = .ok [stage] ∧ stage.command = name) ↔ Runnable name := by
  constructor
  · rintro ⟨stage, hparse, hcommand⟩
    exact runnable_of_parse hparse hcommand
  · intro h
    exact ⟨ofName s name, by rw [h.strip_eq, parse_of_runnable h], rfl⟩

/-! ## What a known name runs -/

theorem ofName?_of_mem : ∀ entry ∈ Builtin.table, Builtin.ofName? entry.1 = some entry.2 := by
  decide

/-- A known name stands for its builtin or for the first file of that name on the search path. -/
theorem targetOf_of_known (hknown : Completion.Known s.world Builtin.names s.searchPath name)
    (hname : Ordinary name) : (∃ b, (name, b) ∈ Builtin.table ∧ targetOf s name = .builtin b) ∨
      ∃ path, Lookup.inDirectories s.world name s.searchPath = some path ∧
        targetOf s name = .program (some path) := by
  by_cases hbuiltin : name ∈ Builtin.names
  · obtain ⟨⟨name, b⟩, hb, rfl⟩ := List.mem_map.mp hbuiltin
    refine .inl ⟨b, hb, ?_⟩
    have hresolve : Builtin.resolveIn s name = .builtin := by
      rw [Builtin.resolveIn, Lookup.resolve, if_pos (by simpa using hbuiltin)]
    rw [targetOf, hresolve, ofName?_of_mem _ hb]
  · obtain ⟨d, hd, hlists⟩ := hknown.resolve_left hbuiltin
    have hfound :=
      Lookup.isSome_inDirectories.mpr ⟨d, hd, Lookup.isExecutable_of_lists hname hlists⟩
    obtain ⟨path, hpath⟩ := Option.isSome_iff_exists.mp hfound
    have hresolve : Builtin.resolveIn s name = .external path :=
      (Lookup.resolve_eq_external_iff hbuiltin (by simpa using hname.slash)).mpr hpath
    refine .inr ⟨path, hpath, ?_⟩
    rw [targetOf, hresolve]
    rfl

end Stage

namespace Shell

/-- A line that is a runnable name runs the stage of that name and nothing else. -/
theorem execute_of_runnable {s : Session} {line name : String} (h : Stage.Runnable name)
    (hline : Text.strip line = name) (hhelp : name ∉ helpWords) :
    execute s line =
      let o := runStages (recorded s name) [Stage.ofName s name]
      settle (o.ending, o.session) := by
  have hasks : asksForHelp name = false := by
    simp [asksForHelp, h.tokenize, Word.bare, hhelp]
  have hparse : Stage.parse (recorded s name) name = .ok [Stage.ofName s name] := by
    rw [parse_recorded, Stage.parse_of_runnable h]
  rw [execute_eq_ite s (by rw [hline]; exact h.ne_empty), hline, hasks, if_neg Bool.false_ne_true,
    runLine, hparse]

end Shell

namespace Completion

theorem strip_accepted {lead : List Char} {name : String}
    (hblank : ∀ c ∈ lead, Text.isBlank c = true) :
    Text.strip (String.ofList (lead ++ (name ++ " ").toList)) = Text.strip name := by
  rw [← String.toList_inj, Text.toList_strip, Text.toList_strip, String.toList_ofList,
    String.toList_append]
  exact Text.trimmed_around hblank (by simp) name.toList

/-! ## A directory with one program -/

/-- A world with one program. -/
def stocked (name : String) : World where
  files := { nodes := [(["bin"], .dir), (["bin", name], .file ByteArray.empty true)] }

section Stock

variable {name : String}

/-- The path of the program. -/
def stockedPath (name : String) : Path := Path.ofParts ["bin", name]

/-- A name that fits into the directory. -/
structure Fits (name : String) : Prop where
  ordinary : Ordinary name
  name_size : Path.size name ≤ FileSystem.maxName
  path_size : Path.size (stockedPath name).text ≤ FileSystem.maxPath

theorem candidate_stocked (h : Fits name) : Lookup.candidate "/bin" name = stockedPath name := by
  rw [Lookup.candidate, h.ordinary.ofText]
  rfl

theorem isExecutable_stocked (h : Fits name) :
    (stocked name).isExecutable (stockedPath name) = true := by
  have hbin : ¬ FileSystem.maxName < (Utf8.encode "bin").length := by decide
  have hname : ¬ FileSystem.maxName < (Utf8.encode name).length := Nat.not_lt.mpr h.name_size
  have hnull : Path.hasNull (stockedPath name).text = false := by
    rw [Path.hasNull_text]
    simp [stockedPath, Path.ofParts, h.ordinary.null, show Path.hasNull "bin" = false by decide]
  have hstat : (stocked name).files.stat (stocked name).directory (stockedPath name) =
      .ok (["bin", name], .file ByteArray.empty true) := by
    rw [FileSystem.stat_eq_iff, FileSystem.locate, if_neg (Nat.not_lt.mpr h.path_size)]
    simp [stocked, stockedPath, Path.ofParts, Path.isAbsolute, FileSystem.walk, FileSystem.get?,
      hbin, hname, h.ordinary.ne_empty, h.ordinary.ne_point, h.ordinary.ne_points]
  simp [World.isExecutable, World.test, FileSystem.test, hnull, hstat, FileSystem.isExecutableNode]

theorem executablesIn_stocked (h : Fits name) :
    Lookup.executablesIn (stocked name) "/bin" = .ok [name] := by
  have hscans : (stocked name).Scans "/bin" :=
    World.scans_of_size rfl (by decide) (by decide) (by decide)
  have hbin : ¬ FileSystem.maxName < (Utf8.encode "bin").length := by decide
  have hdir : (stocked name).files.stat (stocked name).directory (Path.ofText "/bin") =
      .ok (["bin"], .dir) := by
    rw [show Path.ofText "/bin" =
      Path.ofParts ["bin"] by decide, FileSystem.stat_eq_iff, FileSystem.locate, if_neg (by decide)]
    simp [stocked, Path.ofParts, Path.isAbsolute, FileSystem.walk, FileSystem.get?, hbin]
  have hnames : (stocked name).files.names ["bin"] = [name] := by
    simp [stocked, FileSystem.names]
  have hexecutable : (stocked name).isExecutable (Path.ofText (Path.inDirectory "/bin" name)) =
      true := by
    rw [Path.ofText_inDirectory "/bin" h.ordinary]
    exact (congrArg _ (candidate_stocked h)).trans (isExecutable_stocked h)
  rw [Lookup.executablesIn, hscans.lists _ hdir, hnames]
  simp [hexecutable]

/-- The program is proposed for a word that no builtin starts with. -/
theorem propose_stocked (h : Fits name) {word : String} (hspace : ' ' ∉ word.toList)
    (hhits : (Builtin.names ++ [name]).filter (fun n => word.toList.isPrefixOf n.toList) = [name]) :
    propose (stocked name) Builtin.names ["/bin"] word =
      .ok { kind := .complete, word, insertion := name ++ " ", candidates := [name] } := by
  have hline : Typed ([] ++ word.toList) [] word.toList := ⟨rfl, .inl rfl, hspace⟩
  have hnames : commandNames (stocked name) Builtin.names ["/bin"] =
      .ok (Builtin.names ++ [name]) := by
    rw [commandNames_cons, executablesIn_stocked h]
    rfl
  have hpropose : propose (stocked name) Builtin.names ["/bin"]
      (String.ofList ([] ++ word.toList)) = _ :=
    propose_of_blank hline (by simp)
  rw [List.nil_append, String.ofList_toList, hnames] at hpropose
  rw [hpropose]
  simp [Except.map, hits, hhits, Text.inOrder, choose]

end Stock

theorem fits_of_mem : ∀ name ∈ ["my tool", "ls"], Fits name := by
  have hordinary : ∀ name ∈ ["my tool", "ls"], name ≠ "" ∧ name ≠ "." ∧ name ≠ ".." ∧
      '/' ∉ name.toList ∧ Path.hasNull name = false ∧ Path.size name ≤ FileSystem.maxName ∧
      Path.size (stockedPath name).text ≤ FileSystem.maxPath := by decide
  intro name hname
  obtain ⟨hempty, hpoint, hpoints, hslash, hnull, hsize, hpath⟩ := hordinary name hname
  exact ⟨⟨hempty, hpoint, hpoints, hslash, hnull⟩, hsize, hpath⟩

/-- A program whose name holds a space is completed, but the line is two words and runs another
command. -/
theorem not_one_word :
    propose (stocked "my tool") Builtin.names ["/bin"] "my" =
        .ok { kind := .complete, word := "my", insertion := "my tool "
              candidates := ["my tool"] } ∧
      Word.tokenize "my tool " = [Word.bare "my", Word.bare "tool"] ∧
      (¬ ∃ x, Word.tokenize "my tool " = [x] ∧ x.text = "my tool") ∧
      ∀ s stage, Stage.parse s (Text.strip "my tool ") = .ok [stage] →
        stage.command ≠ "my tool" := by
  have hwords : Word.tokenize "my tool " = [Word.bare "my", Word.bare "tool"] := by decide +kernel
  have hstrip : Text.strip "my tool " = Text.strip "my tool" := by decide
  have hpropose : propose (stocked "my tool") Builtin.names ["/bin"] "my" = _ :=
    propose_stocked (fits_of_mem "my tool" (by simp)) (by decide) (by decide)
  rw [show "my tool" ++ " " = "my tool " by decide] at hpropose
  refine ⟨hpropose, hwords, ?_, ?_⟩
  · rintro ⟨x, hx, -⟩
    rw [hwords] at hx
    cases hx
  · intro s stage hparse hname
    rw [hstrip] at hparse
    exact ((Stage.runnable_of_parse hparse hname).literal.ordinary ' ' (by decide)).1 rfl

/-- The line with a completion is one word, and the name that was offered, just if spaces stand
before it and the name is literal without a backslash. It is read as that command just if the name
is runnable; then, unless it asks for help, it runs that command and nothing else: the builtin, or
the first file of that name. -/
theorem accepted_runs {w : World} {builtins directories : List String} {line : String}
    {p : Proposal} (hp : propose w builtins directories line = .ok p)
    (hcomplete : p.kind = .complete) :
    ∃ lead word name, Typed line.toList lead word ∧ p.candidates = [name] ∧
      let accepted := String.ofList (lead ++ p.insertion.toList)
      ((∃ x, Word.tokenize accepted = [x] ∧ x.text = name) ↔
        (∀ c ∈ lead, c = ' ') ∧ Word.IsLiteral name.toList ∧ '\\' ∉ name.toList) ∧
      ∀ s : Session,
        ((∃ stage, Stage.parse s (Text.strip accepted) = .ok [stage] ∧ stage.command = name) ↔
          Stage.Runnable name) ∧
        (Stage.Runnable name → name ∉ Shell.helpWords → Shell.execute s accepted =
          let o := Shell.runStages (Shell.recorded s name) [Stage.ofName s name]
          Shell.settle (o.ending, o.session)) ∧
        (w = s.world → builtins = Builtin.names → directories = s.searchPath → Ordinary name →
          (∃ b, (name, b) ∈ Builtin.table ∧ Stage.targetOf s name = .builtin b) ∨
          ∃ path, Lookup.inDirectories w name directories = some path ∧
            Stage.targetOf s name = .program (some path)) := by
  obtain ⟨lead, word, hline, hblank, hoffers⟩ := offers_of_propose hp (by simp [hcomplete])
  obtain ⟨name, hname⟩ := hoffers.complete.mp hcomplete
  refine ⟨lead, word, name, hline, hname, ?_⟩
  intro accepted
  have haccepted : accepted = String.ofList (lead ++ (name ++ " ").toList) := by
    rw [← hoffers.insertion_complete name hname]
  have hstrip : Text.strip accepted = Text.strip name := by rw [haccepted, strip_accepted hblank]
  refine ⟨haccepted ▸ Word.tokenize_typed_iff hblank hline.lead_eq, fun s => ⟨?_, ?_, ?_⟩⟩
  · rw [hstrip, Stage.parse_strip_iff]
  · exact fun h hhelp => Shell.execute_of_runnable h (hstrip.trans h.strip_eq) hhelp
  · rintro rfl rfl rfl hordinary
    have hknown := ((hoffers.mem_candidates name).mp (by simp [hname])).1
    exact Stage.targetOf_of_known hknown hordinary

/-- A session in a world with one program, which is on the search path. -/
def stockedSession (name : String) : Session :=
  { Shell.unfurnished with world := stocked name, environment := ⟨[("PATH", "/bin")]⟩ }

/-- A program whose name holds nothing special is run by its completion. -/
theorem accepted_runs_ls :
    let s := stockedSession "ls"
    let p : Proposal :=
      { kind := .complete, word := "ls", insertion := "ls ", candidates := ["ls"] }
    (propose s.world Builtin.names s.searchPath "ls" = .ok p ∧ p.kind = .complete) ∧
      Stage.Runnable "ls" ∧
      (∃ x, Word.tokenize "ls " = [x] ∧ x.text = "ls") ∧
      (∃ path, Stage.targetOf s "ls" = .program (some path)) ∧ Shell.execute s "ls " =
        let o := Shell.runStages (Shell.recorded s "ls") [Stage.ofName s "ls"]
        Shell.settle (o.ending, o.session) := by
  intro s p
  have hpath : s.searchPath = ["/bin"] := by decide
  have hpropose : propose (stocked "ls") Builtin.names ["/bin"] "ls" = _ :=
    propose_stocked (fits_of_mem "ls" (by simp)) (by decide) (by decide)
  rw [show "ls" ++ " " = "ls " by decide] at hpropose
  have hoperator : Redirection.operatorOf? (Word.bare "ls") = none := by decide
  have hrunnable : Stage.Runnable "ls" :=
    ⟨⟨by decide, by simp, by decide⟩, by decide, by decide, by simp [Redirection.IsArgument,
      hoperator]⟩
  have hp : propose s.world Builtin.names s.searchPath "ls" = .ok p := hpath ▸ hpropose
  obtain ⟨lead, word, name, hline, hname, hwords, hruns⟩ := accepted_runs hp rfl
  obtain rfl : name = "ls" := (List.singleton_inj.mp hname).symm
  obtain rfl : word = ['l', 's'] := (congrArg Prod.snd hline.splitLast).symm.trans (by decide)
  obtain rfl : lead = [] := (List.append_cancel_right hline.line_eq : [] = lead).symm
  obtain ⟨-, hexecute, htarget⟩ := hruns s
  have haccepted : String.ofList ([] ++ p.insertion.toList) = "ls " := by decide
  rw [haccepted] at hwords hexecute
  refine ⟨⟨hp, rfl⟩, hrunnable, hwords.mpr ⟨by simp, hrunnable.literal, by decide⟩, ?_,
    hexecute hrunnable (by decide)⟩
  obtain ⟨b, hb, -⟩ | ⟨path, -, hprogram⟩ :=
    htarget rfl rfl rfl (fits_of_mem "ls" (by simp)).ordinary
  · have hbuiltin : "ls" ∈ Builtin.names := List.mem_map_of_mem hb
    exact absurd hbuiltin (by decide)
  · exact ⟨path, hprogram⟩

end Completion

end CommandShell
