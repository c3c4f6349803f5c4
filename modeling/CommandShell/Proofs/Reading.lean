import CommandShell.Proofs.Builtin.Edits
import CommandShell.Stage

/-!
# What a line is read as

The names in a line are looked up among the builtins and the files, so a line is read in the same
way by two sessions that share these. Only one name is read as the builtin that stops the shell.

## Main statements

- `Stage.parse_congr`: what a line is read as depends on the files, the variables and the directory.
- `Stage.target_of_parse`: the stages of a line run what their names stand for.
- `Stage.targetOf_eq_builtin`: a name runs a builtin if it is one of its names.
- `Stage.targetOf_eq_exit`: the name of `exit`.
-/

namespace CommandShell.Stage

variable {s s' : Session}

/-- What a name runs depends on the files, the variables and the working directory. -/
theorem targetOf_congr (hw : s'.world = s.world) (he : s'.environment = s.environment)
    (hc : s'.cwd = s.cwd) (name : String) : targetOf s' name = targetOf s name := by
  simp only [targetOf, Builtin.resolveIn, Session.searchPath, hw, he, hc]

/-- What a line is read as depends on what the names in it run. -/
theorem parse_of_targetOf (ht : ∀ name, targetOf s' name = targetOf s name) (line : String) :
    parse s' line = parse s line := by
  have hsegments (segments : List String) : ofSegments s' segments = ofSegments s segments := by
    induction segments with
    | nil => rfl
    | cons segment rest ih => simp only [ofSegments, ofSegment, ht, ih]
  simp only [parse, hsegments]

/-- What a line is read as depends on the files, the variables and the working directory. -/
theorem parse_congr (hw : s'.world = s.world) (he : s'.environment = s.environment)
    (hc : s'.cwd = s.cwd) (line : String) : parse s' line = parse s line :=
      parse_of_targetOf (targetOf_congr hw he hc) line

theorem target_of_ofSegments {segments : List String} {stages : List Stage}
    (h : ofSegments s segments = .ok stages) :
      ∀ stage ∈ stages, stage.target = targetOf s stage.command := by
  induction segments generalizing stages with
  | nil =>
    cases h
    exact fun _ hmem => nomatch hmem
  | cons segment rest ih =>
    unfold ofSegments at h
    split at h
    · cases h
    · next first hfirst =>
      obtain ⟨later, hlater, rfl⟩ := except_map_eq_ok.mp h
      rintro stage (_ | ⟨_, hmem⟩)
      · unfold ofSegment at hfirst
        split at hfirst <;> cases hfirst
        rfl
      · exact ih hlater stage hmem

/-- The stages of a line run what their names stand for. -/
theorem target_of_parse {line : String} {stages : List Stage} (h : parse s line = .ok stages) :
    ∀ stage ∈ stages, stage.target = targetOf s stage.command := by
  unfold parse at h
  split at h
  · cases h
    exact fun _ hmem => nomatch hmem
  · split at h
    · cases h
    · exact target_of_ofSegments h

/-- A name runs a builtin if and only if it is one of its names. -/
theorem targetOf_eq_builtin {name : String} {b : Builtin} :
    targetOf s name = .builtin b ↔ Builtin.ofName? name = some b := by
  unfold targetOf
  cases hb : Builtin.ofName? name with
  | none => cases Builtin.resolveIn s name <;> simp
  | some b' =>
    obtain ⟨entry, hfound, -⟩ := Option.map_eq_some_iff.mp hb
    have hname : entry.1 = name := by simpa using List.find?_some hfound
    have hmem : name ∈ Builtin.names :=
      hname ▸ List.mem_map_of_mem (List.mem_of_find?_eq_some hfound)
    simp [Builtin.resolveIn, Lookup.resolve, hmem]

/-- A line of one segment is read as one stage. -/
theorem parse_single {line name : String} {quoted : Bool} {args : List Word}
    {redirections : Redirections} {target : Target} (hsegments : Word.segments line = [line])
    (hne : line ≠ "") (hwords : Redirection.extract (Word.tokenize line) =
      .ok (⟨name, quoted⟩ :: args, redirections))
    (htarget : targetOf s name = target) :
    parse s line =
        .ok [{ command := name, args := args.map Word.text, target, text := line,
               redirections }] := by
  simp [parse, hsegments, hne, ofSegments, ofSegment, hwords, htarget, Except.map]

/-- A line of one segment whose command names a builtin is read as this builtin. -/
theorem parse_builtin (s : Session) {line name : String} {quoted : Bool} {args : List Word}
    {redirections : Redirections} {b : Builtin} (hsegments : Word.segments line = [line])
    (hne : line ≠ "") (hwords : Redirection.extract (Word.tokenize line) =
      .ok (⟨name, quoted⟩ :: args, redirections))
    (hb : Builtin.ofName? name = some b) :
    parse s line =
      .ok [{ command := name, args := args.map Word.text, target := .builtin b, text := line
             redirections }] :=
  parse_single hsegments hne hwords (targetOf_eq_builtin.mpr hb)

/-- Only `exit` is a name of the builtin that stops the shell, and it is always one. -/
theorem targetOf_eq_exit (name : String) : targetOf s name = .builtin .exit ↔ name = "exit" := by
  rw [targetOf_eq_builtin]
  constructor
  · intro hb
    obtain ⟨entry, hfound, hexit⟩ := Option.map_eq_some_iff.mp hb
    have hname : entry.1 = name := by simpa using List.find?_some hfound
    have hentry : ∀ e ∈ Builtin.table, e.2 = .exit → e.1 = "exit" := by decide
    exact hname ▸ hentry entry (List.mem_of_find?_eq_some hfound) hexit
  · rintro rfl
    decide

end CommandShell.Stage
