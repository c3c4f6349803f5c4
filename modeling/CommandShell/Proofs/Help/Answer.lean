import CommandShell.Proofs.Help.Asking
import CommandShell.Proofs.Leaving
import CommandShell.Proofs.Text.Lines

/-!
# Lines that ask for help

Whether a line asks for help is found out from the words of the whole line, and what is run are the
words of its segments. The first reading comes to the pipes as to any other character, so a pipe
belongs to the words that touch it: what asks for help are the pieces, that is the segments with the
pipes around them.

## Main statements

- `Word.asks_cut`: a word of a line asks for help just if it does so in its piece.
- `Shell.asksForHelp_of_apart`: segments that are set off from the pipes by plain spaces ask as
  their pieces do.
- `Shell.execute_answers`: which lines are answered, and that the other ones are run once.
-/

namespace CommandShell

namespace Word

/-- Pieces with the pipes at which they meet: each has one at its end but the last, and one at its
start but the first, which starts as it is told. -/
def barred (before : List Char) : List (List Char) → List (List Char)
  | [] => []
  | piece :: others => (before ++ piece ++ if others = [] then [] else ['|']) :: barred ['|'] others

/-- The segments of a line, character for character, each with the pipes around it. -/
def pieces (line : String) : List String := (barred [] (cut .plain line.toList)).map String.ofList

/-- A word of a line asks for help just if it does so in the piece in which it stands. -/
theorem asks_cut (q : Quoting) (cs : List Char) (first : List Char) (others : List (List Char))
    (hcut : cut q cs = first :: others) (draft : Option Draft) :
    (scan q draft cs).any asks =
      ((scan q draft (first ++ if others = [] then [] else ['|'])).any asks ||
        (barred ['|'] others).any fun piece => (scan .plain none piece).any asks) := by
  induction q, cs using cut_induction generalizing first others draft with
  | nil q | escape q =>
    cases hcut
    simp [barred]
  | @block q block q' rest htakes ih =>
    obtain ⟨ws, draft', hread, -⟩ := htakes.reads draft
    obtain ⟨first', others', hrest⟩ := List.exists_cons_of_ne_nil (cut_ne_nil q' rest)
    rw [hrest, foldr_consFirst_cons] at hcut
    cases hcut
    rw [hread, List.append_assoc, hread, List.any_append, List.any_append,
      ih first' others hrest draft', Bool.or_assoc]
  | pipe rest ih =>
    obtain ⟨first', others', hrest⟩ := List.exists_cons_of_ne_nil (cut_ne_nil .plain rest)
    cases hcut
    have hpush (draft : Option Draft) (cs : List Char) :
        scan .plain draft ('|' :: cs) = scan .plain (some ((draft.getD {}).push '|')) cs :=
      scan_plain_of_ne draft cs (by decide) (by decide) (by decide) (by decide)
    have hspoiled (draft : Option Draft) : ((draft.getD {}).push '|').Spoiled :=
      Draft.spoiled_push _ (by decide)
    -- the word that takes the pipe asks for no help on either side
    have hend : (scan .plain draft ['|']).any asks = false := by
      simp [hpush, scan_end, (hspoiled draft).asks_toWord]
    have hbar := asks_spoiled_congr (q := .plain) (hspoiled draft) (hspoiled none)
    rw [hpush, ih first' others' hrest, hrest, hbar, ← hpush]
    simp [barred, hend]

/-- Each piece is a segment with pipes around it. -/
theorem exists_of_mem_barred {before : List Char} (hbefore : ∀ c ∈ before, c = '|')
    {segments : List (List Char)} {piece : List Char} (h : piece ∈ barred before segments) :
    ∃ segment ∈ segments, ∃ front back, piece = front ++ segment ++ back ∧ (∀ c ∈ front, c = '|') ∧
      ∀ c ∈ back, c = '|' := by
  induction segments generalizing before with
  | nil => cases h
  | cons first others ih =>
    rcases List.mem_cons.mp h with rfl | h
    · refine ⟨first, by simp, before, _, rfl, hbefore, ?_⟩
      split <;> simp
    · obtain ⟨segment, hmem, hpiece⟩ := ih (by simp) h
      exact ⟨segment, List.mem_cons_of_mem first hmem, hpiece⟩

end Word

namespace Shell

open Word

theorem asksForHelp_eq (line : String) :
    asksForHelp line = (scan .plain none line.toList).any asks := rfl

/-- A line asks for help just if one of its pieces does. -/
theorem asksForHelp_eq_any (line : String) : asksForHelp line = (pieces line).any asksForHelp := by
  obtain ⟨first, others, hcut⟩ := List.exists_cons_of_ne_nil (cut_ne_nil .plain line.toList)
  rw [asksForHelp_eq, asks_cut _ _ first others hcut none, pieces, hcut, barred, List.map_cons,
    List.any_cons, List.any_map]
  simp [asksForHelp_eq, Function.comp_def]

/-- A segment asks for help if its piece does. -/
theorem any_asksForHelp_segments {line : String} (h : (pieces line).any asksForHelp = true) :
    (segments line).any asksForHelp = true := by
  obtain ⟨piece, hpiece, hasks⟩ := List.any_eq_true.mp h
  obtain ⟨cs, hcs, rfl⟩ := List.mem_map.mp hpiece
  obtain ⟨segment, hsegment, front, back, rfl, hfront, hback⟩ := exists_of_mem_barred (by simp) hcs
  obtain ⟨before, after, hstrip, hbefore, hafter⟩ := Text.strip_around (String.ofList segment)
  refine List.any_eq_true.mpr ⟨Text.strip (String.ofList segment), ?_, ?_⟩
  · exact List.mem_map_of_mem (List.mem_map_of_mem hsegment)
  rw [asksForHelp_eq, String.toList_ofList] at hasks
  rw [String.toList_ofList] at hstrip
  rw [hstrip] at hasks
  have hforeign (cs : List Char) (h : ∀ c ∈ cs, c = '|') : ∀ c ∈ cs, Foreign c :=
    fun c hc => h c hc ▸ foreign_pipe
  exact asks_of_around (fun c hc => foreign_of_isBlank (hbefore c hc)) (fun c hc =>
    foreign_of_isBlank (hafter c hc))
    (asks_of_around (hforeign front hfront) (hforeign back hback) hasks)

/-- Where a segment is set off from its pipes by plain spaces and nothing else, it asks for help
just if its piece does. -/
theorem asksForHelp_of_apart {piece segment : String} (h : Apart piece segment) :
    asksForHelp piece = asksForHelp segment := by
  obtain ⟨before, after, hbefore, hafter, hpiece⟩ := h
  rw [asksForHelp_eq, asksForHelp_eq, hpiece, Bool.eq_iff_iff]
  constructor
  · exact asks_of_around hbefore.foreign fun c hc => hafter.foreign c (List.mem_reverse.mpr hc)
  · intro hasks
    rw [List.append_assoc, hbefore.asks_append]
    rcases hafter.eq_reverse with rfl | ⟨rest, rfl⟩
    · rwa [List.append_nil]
    · exact asks_append_space hasks rest

theorem any_asksForHelp_of_apart {line : String}
    (h : List.Forall₂ Apart (pieces line) (segments line)) :
    (pieces line).any asksForHelp = (segments line).any asksForHelp := by
  generalize pieces line = ps at h
  generalize segments line = ss at h
  induction h with
  | nil => rfl
  | cons hapart _ ih => rw [List.any_cons, List.any_cons, asksForHelp_of_apart hapart, ih]

/-- What becomes of a line that has been run: its status is kept, also the one with which it ends
the session. -/
def settle : Except Halt Int × Session → Except Halt Int × Session
  | (.ok status, s) => (.ok status, { s with lastStatus := status })
  | (.error (.exit code), s) => (.error (.exit code), { s with lastStatus := code })
  | halted => halted

theorem execute_eq_ite (s : Session) {line : String} (h : Text.strip line ≠ "") :
    execute s line = if asksForHelp (Text.strip line) then
        (.ok 0, { (recorded s (Text.strip line)).display .out helpText with lastStatus := 0 })
      else settle (runLine (recorded s (Text.strip line)) (Text.strip line)) := by
  unfold execute
  extract_lets stripped s'
  rw [if_neg h]
  split
  · rfl
  · change _ = settle (runLine s' stripped)
    rcases runLine s' stripped with ⟨(_ | _ | _) | _, _⟩ <;> rfl

/-- A line that is not blank is answered with the help text and not run, or it is run once. It is
answered just if a piece of it asks for help, that is a segment with the pipes around it. So a
segment that asks for help is run nevertheless if the word touches a pipe; where plain spaces and
nothing else stand between the segments and the pipes, the line is answered just if a segment asks
for help. -/
theorem execute_answers (s : Session) (line : String) (h : Text.strip line ≠ "") :
    let text := Text.strip line
    ((pieces text).any asksForHelp = true → execute s line =
      (.ok 0, { (recorded s text).display .out helpText with lastStatus := 0 })) ∧
    ((pieces text).any asksForHelp = false →
      execute s line = settle (runLine (recorded s text) text)) ∧
    ((pieces text).any asksForHelp = true → (segments text).any asksForHelp = true) ∧
    (List.Forall₂ Apart (pieces text) (segments text) →
      (pieces text).any asksForHelp = (segments text).any asksForHelp) := by
  intro text
  rw [← asksForHelp_eq_any text, execute_eq_ite s h]
  refine ⟨fun hasks => if_pos hasks, fun hasks => if_neg (by simp [text, hasks]), fun hasks => ?_,
    fun hapart => ?_⟩
  · exact any_asksForHelp_segments ((asksForHelp_eq_any text) ▸ hasks)
  · rw [asksForHelp_eq_any, any_asksForHelp_of_apart hapart]

/-- A session without files and variables. -/
def unfurnished : Session where
  environment := ⟨[]⟩
  cwd := Path.ofParts []
  world := {}
  machine := ⟨fun _ _ _ => .error .notFound⟩

/-- Help is given behind a pipe that is set off by spaces, and not behind one that the word
touches. -/
theorem execute_answers_apart :
    (List.Forall₂ Apart (pieces "echo a | help") (segments "echo a | help") ∧
      execute unfurnished "echo a | help" =
        (.ok 0, { (recorded unfurnished "echo a | help").display .out helpText with
          lastStatus := 0 })) ∧
    (segments "echo a|help").any asksForHelp = true ∧
      execute unfurnished "echo a|help" =
        settle (runLine (recorded unfurnished "echo a|help") "echo a|help") := by
  have hstrip : Text.strip "echo a | help" = "echo a | help" := by decide
  have hstrip' : Text.strip "echo a|help" = "echo a|help" := by decide
  have hpieces : pieces "echo a | help" = ["echo a |", "| help"] := by decide +kernel
  have hsegments : segments "echo a | help" = ["echo a", "help"] := by decide +kernel
  have hapart : List.Forall₂ Apart (pieces "echo a | help") (segments "echo a | help") := by
    rw [hpieces, hsegments]
    exact .cons ⟨[], [' ', '|'], .spaces 0, .pipe 0, by decide⟩
      (.cons ⟨['|', ' '], [], .pipe 0, .spaces 0, by decide⟩ .nil)
  have hasks : (segments "echo a | help").any asksForHelp = true := by decide +kernel
  have hjoined : (pieces "echo a|help").any asksForHelp = false := by decide +kernel
  obtain ⟨hanswer, -, -, hsame⟩ := execute_answers unfurnished "echo a | help" (by decide)
  obtain ⟨-, hrun, -, -⟩ := execute_answers unfurnished "echo a|help" (by decide)
  rw [hstrip] at hanswer hsame
  rw [hstrip'] at hrun
  exact ⟨⟨hapart, hanswer ((hsame hapart).trans hasks)⟩, by decide +kernel, hrun hjoined⟩

end Shell

end CommandShell
