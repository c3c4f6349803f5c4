import CommandShell.Proofs.Builtin.Halts
import CommandShell.Proofs.Division
import CommandShell.Proofs.Quotation
import CommandShell.Proofs.Reading
import CommandShell.Proofs.Text.Lines
import CommandShell.Shell

/-!
# Lines that are refused

A line is a pipeline unless a segment of it is empty, lacks the file of an operator, or holds
redirections and no command. Whether a line is refused depends on nothing but the line, and a line
that is refused is not run in part.

## Main statements

- `Redirection.extract_eq_nil_iff`: the commands that are left without words.
- `Stage.ofSegments_eq_error_iff`: the leftmost faulty segment is reported.
- `Shell.refused_unrun`: the lines that are refused, and what is done about them.
-/

namespace CommandShell

namespace Text

/-- Nothing is left of a text just if it is blank. -/
theorem strip_eq_empty_iff (s : String) : strip s = "" ↔ isBlankText s = true := by
  rw [← String.toList_inj, toList_strip, stripChars_eq_trimmed, isBlankText, List.all_eq_true]
  exact trimmed_eq_nil_iff

theorem length_strip_le (s : String) : (strip s).toList.length ≤ s.toList.length := by
  obtain ⟨before, after, hs, -, -⟩ := strip_around s
  have hlength := congrArg List.length hs
  simp only [List.length_append] at hlength
  omega

/-- A text that does not become shorter has no blanks at its ends. -/
theorem strip_eq_of_length_le {s : String} (h : s.toList.length ≤ (strip s).toList.length) :
    strip s = s := by
  obtain ⟨before, after, hs, -, -⟩ := strip_around s
  have hlength := congrArg List.length hs
  simp only [List.length_append] at hlength
  have hbefore : before = [] := List.eq_nil_of_length_eq_zero (by omega)
  have hafter : after = [] := List.eq_nil_of_length_eq_zero (by omega)
  rw [hbefore, hafter, List.nil_append, List.append_nil] at hs
  exact String.toList_inj.mp hs.symm

end Text

namespace Word

/-- Blanks do not divide a line. -/
theorem isUndivided_blanks {cs : List Char} (h : ∀ c ∈ cs, Text.isBlank c = true) :
    IsUndivided cs := by
  induction cs with
  | nil => exact isUndivided_nil
  | cons c cs ih =>
    intro rest
    have hc : Text.isBlank c = true := h c (by simp)
    have hescape : c ≠ '\\' := by rintro rfl; cases hc
    have hsingle : c ≠ '\'' := by rintro rfl; cases hc
    have hdouble : c ≠ '"' := by rintro rfl; cases hc
    have hpipe : c ≠ '|' := by rintro rfl; cases hc
    rw [List.cons_append, cut_plain_of_ne _ hescape hsingle hdouble hpipe, List.foldr_cons]
    rw [ih fun d hd => h d (by simp [hd])]

/-- A line that is not divided is its only segment. -/
theorem segments_of_length {line : String} (h : (cut .plain line.toList).length = 1) :
    segments line = [Text.strip line] := by
  obtain ⟨piece, hpiece⟩ := List.length_eq_one_iff.mp h
  have hline : piece = line.toList := by
    simpa [hpiece, List.intercalate] using intercalate_cut .plain line.toList
  simp [segments, rawSegments, hpiece, hline]

theorem length_segments (line : String) :
    (segments line).length = (cut .plain line.toList).length := by
  simp [segments, rawSegments]

/-- A line is one empty segment just if it is blank. -/
theorem segments_eq_empty_iff (line : String) : segments line = [""] ↔
    Text.isBlankText line = true := by
  constructor
  · intro h
    have hone : (cut .plain line.toList).length = 1 := by
      rw [← length_segments, h, List.length_singleton]
    have hstrip : Text.strip line = "" := by
      rw [segments_of_length hone] at h
      exact List.singleton_inj.mp h
    exact (Text.strip_eq_empty_iff line).mp hstrip
  · intro h
    have hcut : cut .plain line.toList = [line.toList] :=
      cut_of_isUndivided (isUndivided_blanks (List.all_eq_true.mp h))
    simpa [segments, rawSegments, hcut] using (Text.strip_eq_empty_iff line).mpr h

theorem segments_ne_nil (line : String) : segments line ≠ [] := by
  simp [segments, rawSegments, cut_ne_nil]

/-- A word that has been begun is read. -/
theorem scan_ne_nil (q : Quoting) {draft : Option Draft} (hd : draft ≠ none) (cs : List Char) :
    scan q draft cs ≠ [] := by
  fun_induction scan q draft cs <;> simp_all

/-- Only spaces hold no word. -/
theorem eq_space_of_scan_eq_nil {cs : List Char} (h : scan .plain none cs = []) :
    ∀ c ∈ cs, c = ' ' := by
  induction cs with
  | nil => simp
  | cons c rest ih =>
    by_cases hc : c = ' '
    · subst hc
      have hrest : scan .plain none rest = [] := by simpa using h
      simpa using ih hrest
    · -- any other character begins a word
      exfalso
      have hword (q : Quoting) (d : Draft) (cs : List Char) : scan q (some d) cs ≠ [] :=
        scan_ne_nil q (by simp) cs
      rw [scan.eq_def] at h
      dsimp only at h
      rw [if_neg hc] at h
      split at h
      · exact hword _ _ _ h
      · split at h
        · exact hword _ _ _ h
        · split at h
          · split at h <;> exact hword _ _ _ h
          · exact hword _ _ _ h

/-- A segment with something in it has words. -/
theorem tokenize_ne_nil {line segment : String} (h : segment ∈ segments line) (hne : segment ≠ "") :
    tokenize segment ≠ [] := by
  obtain ⟨raw, -, rfl⟩ := List.mem_map.mp h
  intro hnil
  have hspaces := eq_space_of_scan_eq_nil hnil
  have hblank : Text.isBlankText (Text.strip raw) = true :=
    List.all_eq_true.mpr fun c hc => by rw [hspaces c hc, Text.isBlank_space]
  rw [Text.isBlankText_strip hne] at hblank
  cases hblank

end Word

namespace Redirection

/-- Words that are nothing but redirections. -/
inductive Redirects : List Word → Prop
  | nil : Redirects []
  /-- Errors follow the output. -/
  | merge {w : Word} {spelling : String} {rest : List Word}
    (hw : operatorOf? w = some ⟨spelling, .merge⟩) (hwhole : w.text = spelling)
    (hrest : Redirects rest) : Redirects (w :: rest)
  /-- The file is glued on. -/
  | glued {w : Word} {spelling : String} {channel : Channel} {mode : OpenMode} {rest : List Word}
    (hw : operatorOf? w = some ⟨spelling, .toFile channel mode⟩) (hmore : w.text ≠ spelling)
    (hrest : Redirects rest) : Redirects (w :: rest)
  /-- The file is the next word, whatever it is. -/
  | file {w file : Word} {spelling : String} {channel : Channel} {mode : OpenMode}
    {rest : List Word} (hw : operatorOf? w = some ⟨spelling, .toFile channel mode⟩)
    (hwhole : w.text = spelling) (hrest : Redirects rest) : Redirects (w :: file :: rest)

/-- No word is left of a command just if all its words are redirections. -/
theorem extractFrom_eq_nil_iff (r : Redirections) (words : List Word) :
    (∃ r', extractFrom r words = .ok ([], r')) ↔ Redirects words := by
  constructor
  · rintro ⟨r', h⟩
    fun_induction extractFrom r words with
    | case1 => exact .nil
    | case2 r w rest hw ih =>
      obtain ⟨⟨args, r''⟩, -, heq⟩ := except_map_eq_ok.mp h
      cases heq
    | case3 r rest spelling hw ih => exact .merge hw rfl (ih h)
    | case4 r w rest spelling hw hmore ih =>
      obtain ⟨⟨args, r''⟩, -, heq⟩ := except_map_eq_ok.mp h
      cases heq
    | case5 => cases h
    | case6 r w channel mode operand rest hw ih => exact .file hw rfl (ih h)
    | case7 r w rest spelling channel mode hw hmore ih => exact .glued hw hmore (ih h)
  · intro h
    induction h generalizing r with
    | nil => exact ⟨r, rfl⟩
    | merge hw hwhole _ ih => simpa [extractFrom, hw, hwhole] using ih _
    | glued hw hmore _ ih => simpa [extractFrom, hw, hmore] using ih _
    | file hw hwhole _ ih => simpa [extractFrom, hw, hwhole] using ih _

theorem extract_eq_nil_iff (words : List Word) :
    (∃ r, extract words = .ok ([], r)) ↔ Redirects words :=
  extractFrom_eq_nil_iff {} words

end Redirection

namespace Stage

/-- What is wrong with a segment that holds something. -/
inductive Faulty (segment : String) : LineError → Prop
  /-- The last operator has no file. -/
  | missingOperand {e : Redirection.MissingOperand}
    (h : Redirection.extract (Word.tokenize segment) = .error e) :
      Faulty segment (.missingOperand e)
  /-- There are redirections and no command. -/
  | noCommand (h : Redirection.Redirects (Word.tokenize segment)) :
    Faulty segment (.noCommand segment)

variable {s : Session}

theorem ofSegment_eq_error_iff (segment : String) (e : LineError) :
    ofSegment s segment = .error e ↔ Faulty segment e := by
  unfold ofSegment
  constructor
  · intro h
    split at h
    · next he =>
      cases h
      exact .missingOperand he
    · next r hr =>
      cases h
      exact .noCommand ((Redirection.extract_eq_nil_iff _).mp ⟨r, hr⟩)
    · cases h
  · rintro (⟨he⟩ | ⟨hr⟩)
    · rw [he]
    · obtain ⟨r, hr⟩ := (Redirection.extract_eq_nil_iff _).mpr hr
      rw [hr]

theorem text_ofSegment {segment : String} {stage : Stage} (h : ofSegment s segment = .ok stage) :
    stage.text = segment := by
  unfold ofSegment at h
  split at h <;> cases h
  rfl

/-- The leftmost faulty segment is reported. -/
theorem ofSegments_eq_error_iff (segments : List String) (e : LineError) :
    ofSegments s segments = .error e ↔
      ∃ before segment after, segments = before ++ segment :: after ∧
        (∀ sound ∈ before, ∀ e', ¬ Faulty sound e') ∧ Faulty segment e := by
  constructor
  · intro h
    induction segments with
    | nil => cases h
    | cons first rest ih =>
      unfold ofSegments at h
      split at h
      · next he =>
        cases h
        exact ⟨[], first, rest, rfl, by simp, (ofSegment_eq_error_iff first e).mp he⟩
      · next stage hfirst =>
        obtain ⟨before, segment, after, rfl, hsound, hfaulty⟩ := ih (except_map_eq_error h)
        refine ⟨first :: before, segment, after, rfl, ?_, hfaulty⟩
        rintro sound (_ | ⟨_, hmem⟩) e'
        · intro hfault
          rw [(ofSegment_eq_error_iff first e').mpr hfault] at hfirst
          cases hfirst
        · exact hsound sound hmem e'
  · rintro ⟨before, segment, after, rfl, hsound, hfaulty⟩
    induction before with
    | nil => simp [ofSegments, (ofSegment_eq_error_iff segment e).mpr hfaulty]
    | cons first before ih =>
      have hrest := ih fun sound hmem => hsound sound (List.mem_cons_of_mem _ hmem)
      rcases hfirst : ofSegment s first with e' | stage
      · exact absurd ((ofSegment_eq_error_iff first e').mp hfirst) (hsound first (by simp) e')
      · simp [ofSegments, hfirst, hrest, Except.map]

theorem texts_ofSegments {segments : List String} {stages : List Stage}
    (h : ofSegments s segments = .ok stages) : stages.map Stage.text = segments := by
  induction segments generalizing stages with
  | nil =>
    cases h
    rfl
  | cons first rest ih =>
    unfold ofSegments at h
    split at h
    · cases h
    · next stage hfirst =>
      obtain ⟨later, hlater, rfl⟩ := except_map_eq_ok.mp h
      rw [List.map_cons, text_ofSegment hfirst, ih hlater]

variable {line : String}

/-- A line that is not blank has no empty segment, or is refused for it. -/
theorem parse_of_not_blank (h : Text.isBlankText line = false) :
    parse s line = if "" ∈ Word.segments line then .error .emptySegment
      else ofSegments s (Word.segments line) := by
  have hne : Word.segments line ≠ [""] := by
    rw [Ne, Word.segments_eq_empty_iff, h]
    exact Bool.false_ne_true
  unfold parse
  split
  · contradiction
  · simp

theorem parse_eq_nil_iff (s : Session) (line : String) :
    parse s line = .ok [] ↔ Text.isBlankText line = true := by
  constructor
  · intro h
    by_contra hblank
    rw [parse_of_not_blank (by simpa using hblank)] at h
    split at h
    · cases h
    · exact Word.segments_ne_nil line (texts_ofSegments h).symm
  · intro h
    simp [parse, (Word.segments_eq_empty_iff line).mpr h]

theorem parse_eq_error_iff (s : Session) (line : String) (e : LineError) :
    parse s line = .error e ↔
      (2 ≤ (Word.segments line).length ∧ "" ∈ Word.segments line ∧ e = .emptySegment) ∨
      ("" ∉ Word.segments line ∧ ∃ before segment after,
        Word.segments line = before ++ segment :: after ∧
        (∀ sound ∈ before, ∀ e', ¬ Faulty sound e') ∧ Faulty segment e) := by
  cases hblank : Text.isBlankText line with
  | true =>
    rw [parse, (Word.segments_eq_empty_iff line).mpr hblank]
    simp
  | false =>
    rw [parse_of_not_blank hblank, ← ofSegments_eq_error_iff (s := s)]
    by_cases hempty : "" ∈ Word.segments line
    · have hmany : 2 ≤ (Word.segments line).length := by
        by_contra hfew
        have hsome := List.length_pos_iff.mpr (Word.segments_ne_nil line)
        obtain ⟨segment, hone⟩ :=
          List.length_eq_one_iff.mp (show (Word.segments line).length = 1 by omega)
        rw [hone, List.mem_singleton] at hempty
        rw [← hempty] at hone
        rw [(Word.segments_eq_empty_iff line).mp hone] at hblank
        cases hblank
      simp [hempty, hmany, eq_comm]
    · simp [hempty]

end Stage

namespace Shell

open Word (segments)

/-- The lines that are refused: those with an empty segment among several, and those with a segment
that is faulty. An empty segment is reported before all else, then the leftmost faulty segment.
Every other line is a pipeline with a stage for each of its segments, unless it is blank. A line
that is refused has the status 2 and changes nothing but the screen, by one message. -/
theorem refused_unrun (s : Session) (line : String) :
    (Stage.parse s line = .ok [] ↔ Text.isBlankText line = true) ∧
    (∀ e, Stage.parse s line = .error e ↔
      (2 ≤ (segments line).length ∧ "" ∈ segments line ∧ e = .emptySegment) ∨
      ("" ∉ segments line ∧ ∃ before segment after, segments line = before ++ segment :: after ∧
        (∀ sound ∈ before, ∀ e', ¬ Stage.Faulty sound e') ∧ Stage.Faulty segment e)) ∧
    (Text.isBlankText line = false → "" ∉ segments line →
      (∀ segment ∈ segments line, ∀ e, ¬ Stage.Faulty segment e) →
      ∃ stages, Stage.parse s line = .ok stages ∧ stages.map Stage.text = segments line ∧
        stages ≠ []) ∧
    (∀ segment ∈ segments line, segment ≠ "" → Word.tokenize segment ≠ []) ∧
    ∀ e, Stage.parse s line = .error e →
      runLine s line = (.ok 2, { s with screen := s.screen ++
        [{ channel := .err, chunk := .text ("ai-shell: " ++ e.message ++ "\n") }] }) := by
  refine ⟨Stage.parse_eq_nil_iff s line, Stage.parse_eq_error_iff s line,
    fun hblank hempty hsound => ?_,
    fun segment hmem hne => Word.tokenize_ne_nil hmem hne, fun e he => ?_⟩
  · rcases hparse : Stage.parse s line with e | stages
    · obtain ⟨-, hin, -⟩ | ⟨-, before, segment, after, hsegments, -, hfaulty⟩ :=
        (Stage.parse_eq_error_iff s line e).mp hparse
      · exact absurd hin hempty
      · exact absurd hfaulty (hsound segment (by simp [hsegments]) e)
    · have hstages := hparse
      rw [Stage.parse_of_not_blank hblank, if_neg hempty] at hstages
      have htexts := Stage.texts_ofSegments hstages
      refine ⟨stages, rfl, htexts, ?_⟩
      rintro rfl
      exact Word.segments_ne_nil line htexts.symm
  · unfold runLine
    rw [he]
    rfl

/-- The first segment is sound and names a file, the second one lacks a file behind a quoted pipe,
and the third one has no command: the second one is reported and no file is made. -/
theorem refused_unrun_operand :
    let s : Session :=
      { cwd := Path.ofParts [], world := {}, machine := ⟨fun _ _ _ => .error .notFound⟩ }
    let line := "echo a > f | echo '|' 2> | > g"
    Stage.parse s line = .error (.missingOperand ⟨"2>"⟩) ∧
      runLine s line = (.ok 2, { s with screen :=
        [{ channel := .err
           chunk := .text "ai-shell: syntax error: missing file operand after '2>'\n" }] }) := by
  intro s line
  have hparse : Stage.parse s line = .error (.missingOperand ⟨"2>"⟩) := by decide +kernel
  have hmessage : "ai-shell: " ++ Stage.LineError.message (.missingOperand ⟨"2>"⟩) ++ "\n" =
      "ai-shell: syntax error: missing file operand after '2>'\n" := by decide +kernel
  have hrun := (refused_unrun s line).2.2.2.2 _ hparse
  rw [hmessage] at hrun
  exact ⟨hparse, hrun⟩

end Shell

end CommandShell
