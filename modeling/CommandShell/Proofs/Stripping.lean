import CommandShell.Proofs.Division
import CommandShell.Proofs.Spelling
import CommandShell.Proofs.Text.Lines

/-!
# Words of stripped segments

A segment of a line is stripped before its words are read. The blanks in front of it separate
nothing, but those at its end may belong to its last word: when the stripped text leaves a quote
open, or ends in a backslash that took the first of them. Then that word loses its blanks, and a
backslash takes the place of the escaped one. All other segments have the same words before and
after.

## Main definitions

* `Word.Line.isOpen`: the end of the line cuts off its last word.
* `Word.Line.pad`: a spelling of a line with more spaces at its end.
* `Word.Severs`: stripping takes something away from the last word.

## Main statements

* `Word.words_pad`: spaces at the end of a line that is not open change no word.
* `Word.words_pad_of_isOpen`: at the end of a line that is open they go on with its last word.
* `Word.stripped_words`: which segments have the same words when they are stripped, and what the
  others lose.
-/

namespace CommandShell

namespace Word

/-! ## Spaces at the end of a line -/

/-- Spaces as they stand between double quotes. -/
def Item.spaces (n : Nat) : List Item := List.replicate n (.char ' ' ⟨by decide, by decide⟩)

@[simp] theorem Item.text_spaces (n : Nat) : (Item.spaces n).flatMap Item.text = Line.gap n := by
  induction n with
  | zero => rfl
  | succ n ih => simpa [Item.spaces, Line.gap, List.replicate_succ, Item.text] using ih

@[simp] theorem Item.value_spaces (n : Nat) : (Item.spaces n).flatMap Item.value = Line.gap n := by
  induction n with
  | zero => rfl
  | succ n ih => simpa [Item.spaces, Line.gap, List.replicate_succ, Item.value] using ih

namespace OpenSpelling

/-- A spelling of an open word and so many spaces and one more, with spaces in front of it. An open
quote takes all of them, a backslash the first one. -/
def pad (s : OpenSpelling) (front n : Nat) : Line :=
  match s.ending with
  | .single run unclosed =>
    .cut front ⟨s.pieces, .single (run ++ Line.gap (n + 1)) (by simp [Line.gap, unclosed])⟩
  | .double items false => .cut front ⟨s.pieces, .double (items ++ Item.spaces (n + 1)) false⟩
  | .double items true =>
    .cut front ⟨s.pieces, .double (items ++ .keep ' ' (by decide) :: Item.spaces n) false⟩
  | .backslash =>
    match n with
    | 0 => .last front ⟨s.pieces ++ [.escape ' '], by simp⟩
    | n + 1 => .next front ⟨s.pieces ++ [.escape ' '], by simp⟩ (.blank n)

end OpenSpelling

namespace Line

/-- Whether the end of the line cuts off its last word. -/
def isOpen : Line → Bool
  | blank _ | last _ _ => false
  | cut _ _ => true
  | next _ _ rest => rest.isOpen

/-- A spelling of the line with so many spaces and one more at its end. -/
def pad (n : Nat) : Line → Line
  | blank m => blank (m + (n + 1))
  | last m s => next m s (blank n)
  | cut m s => s.pad m n
  | next m s rest => next m s (rest.pad n)

end Line

theorem OpenSpelling.text_pad (s : OpenSpelling) (front n : Nat) :
    (s.pad front n).text = (Line.cut front s).text ++ Line.gap (n + 1) := by
  obtain ⟨pieces, ending⟩ := s
  cases ending with
  | single run unclosed => simp [pad, Line.text, OpenSpelling.text, Ending.text]
  | double items backslash =>
    cases backslash with
    | false => simp [pad, Line.text, OpenSpelling.text, Ending.text, Ending.lone]
    | true =>
      simp [pad, Line.text, OpenSpelling.text, Ending.text, Ending.lone, Item.text, Line.gap,
        List.replicate_succ]
  | backslash =>
    cases n <;>
      simp [pad, Line.text, OpenSpelling.text, Spelling.text, Ending.text, Piece.text, Line.gap,
        List.replicate_succ]

theorem Line.text_pad (line : Line) (n : Nat) :
    (line.pad n).text = line.text ++ Line.gap (n + 1) := by
  induction line with
  | blank m => simp [pad, text, gap, List.replicate_append_replicate]
  | last m s => simp [pad, text, gap, List.replicate_succ]
  | cut m s => exact s.text_pad m n
  | next m s rest ih => simp [pad, text, ih]

/-- Spaces at the end of a line that is not open change no word. -/
theorem words_pad {line : Line} (h : line.isOpen = false) (n : Nat) :
    (line.pad n).words = line.words := by
  induction line with
  | blank m => rfl
  | last m s => rfl
  | cut m s => cases h
  | next m s rest ih => simp [Line.pad, Line.words, ih h]

/-- What a word loses without the spaces at its end: these spaces, or an escaped one, in whose place
the backslash is left. -/
inductive Loses : Word → Word → Prop where
  | spaces {w w' : Word} (n : Nat) (h : w.text.toList = w'.text.toList ++ Line.gap (n + 1)) :
      Loses w w'
  | escaped {w w' : Word} (text : List Char) (h : w.text.toList = text ++ [' '])
      (h' : w'.text.toList = text ++ ['\\']) : Loses w w'

theorem Loses.ne {w w' : Word} (h : Loses w w') : w ≠ w' := by
  rintro rfl
  cases h with
  | spaces n h => simp [Line.gap] at h
  | escaped text h h' => simp [h] at h'

theorem OpenSpelling.words_pad (s : OpenSpelling) (front n : Nat) :
    ∃ w, (s.pad front n).words = [w] ∧ Loses w s.word := by
  obtain ⟨pieces, ending⟩ := s
  cases ending with
  | single run unclosed =>
    refine ⟨_, rfl, .spaces n ?_⟩
    simp [OpenSpelling.word, Ending.value]
  | double items backslash =>
    cases backslash with
    | false =>
      refine ⟨_, rfl, .spaces n ?_⟩
      simp [OpenSpelling.word, Ending.value, Ending.lone]
    | true =>
      refine ⟨_, rfl, .spaces n ?_⟩
      simp [OpenSpelling.word, Ending.value, Ending.lone, Item.value, Line.gap, List.replicate_succ]
  | backslash =>
    refine ⟨Spelling.word ⟨pieces ++ [.escape ' '], by simp⟩, ?_,
      .escaped (pieces.flatMap Piece.value) ?_ ?_⟩
    · cases n <;> rfl
    · simp [Spelling.word, Piece.value]
    · simp [OpenSpelling.word, Ending.value]

/-- Spaces at the end of a line that is open go on with its last word, and change no other. -/
theorem words_pad_of_isOpen {line : Line} (h : line.isOpen = true) (n : Nat) :
    ∃ words w w', (line.pad n).words = words ++ [w] ∧ line.words = words ++ [w'] ∧ Loses w w' := by
  induction line with
  | blank m => cases h
  | last m s => cases h
  | cut m s =>
    obtain ⟨w, hw, hloses⟩ := s.words_pad m n
    exact ⟨[], w, s.word, hw, rfl, hloses⟩
  | next m s rest ih =>
    obtain ⟨words, w, w', hpad, hwords, hloses⟩ := ih h
    exact ⟨s.word :: words, w,
      w', by simp [Line.pad, Line.words, hpad], by simp [Line.words, hwords], hloses⟩

theorem Line.text_ne_nil {line : Line} (h : line.isOpen = true) : line.text ≠ [] := by
  induction line with
  | blank m => cases h
  | last m s => cases h
  | cut m s => simp [text, s.text_ne_nil]
  | next m s rest ih => simp [text]

/-! ## Stripping -/

/-- A text ends in a space, and goes on with its last word there: without the spaces at its end the
text leaves a quote open, or ends in a backslash that escapes nothing. -/
def Severs (s : String) : Prop :=
  s.toList.getLast? = some ' ' ∧
    ∃ spelled : Line, spelled.text = (Text.strip s).toList ∧ spelled.isOpen = true

/-- The blanks that are stripped from a text in which all blanks are spaces. -/
theorem exists_gaps {s : String} (hspaces : ∀ c ∈ s.toList, Text.isBlank c = true → c = ' ') :
    ∃ m n, s.toList = Line.gap m ++ (Text.strip s).toList ++ Line.gap n := by
  obtain ⟨before, after, hs, hbefore, hafter⟩ := Text.strip_around s
  have hgap {cs : List Char} (hmem : ∀ c ∈ cs, c ∈ s.toList)
      (hblank : ∀ c ∈ cs, Text.isBlank c = true) :
      cs = Line.gap cs.length :=
    List.eq_replicate_iff.mpr ⟨rfl, fun c hc => hspaces c (hmem c hc) (hblank c hc)⟩
  refine ⟨before.length, after.length, ?_⟩
  rw [← hgap (fun c hc => by simp [hs, hc]) hbefore, ← hgap (fun c hc => by simp [hs, hc]) hafter]
  exact hs

/-- The words of a text with spaces around it are those of its spelling with the spaces at its
end. -/
theorem tokenize_of_gaps {s : String} {line : Line} {m : Nat} {cs : List Char}
    (hs : s.toList = Line.gap m ++ cs) (hline : line.text = cs) : tokenize s = line.words := by
  rw [tokenize, hs, scan_gap, ← hline, scan_text]

/-- A text in which all blanks are spaces has the same words when it is stripped, unless that severs
its last word: then this word loses what was stripped from it, and all words before it stay. -/
theorem tokenize_strip {s : String} (hspaces : ∀ c ∈ s.toList, Text.isBlank c = true → c = ' ') :
    (¬ Severs s → tokenize (Text.strip s) = tokenize s) ∧
    (Severs s → ∃ words w w', tokenize s = words ++ [w] ∧ tokenize (Text.strip s) = words ++ [w'] ∧
      Loses w w') := by
  obtain ⟨m, n, hs⟩ := exists_gaps hspaces
  have hstripped {line : Line} (hline : line.text = (Text.strip s).toList) :
      tokenize (Text.strip s) = line.words := by
    rw [tokenize, ← hline, scan_text]
  rw [List.append_assoc] at hs
  cases n with
  | zero =>
    obtain ⟨line, hline⟩ := exists_line (Text.strip s).toList
    have hsame : tokenize (Text.strip s) = tokenize s := by
      rw [hstripped hline, tokenize_of_gaps hs (by simpa [Line.gap] using hline)]
    refine ⟨fun _ => hsame, ?_⟩
    -- nothing is stripped at the end, where the text has no blank then
    rintro ⟨hlast, spelled, hspelled, hopen⟩
    exfalso
    have hne : (Text.strip s).toList ≠ [] := hspelled ▸ Line.text_ne_nil hopen
    have hend : (Text.strip s).toList.getLast? = some ' ' := by
      rw [hs, List.getLast?_append, List.getLast?_append] at hlast
      rw [List.getLast?_eq_getLast_of_ne_nil hne] at hlast ⊢
      simpa [Line.gap] using hlast
    cases Text.isBlank_getLast_strip hend
  | succ n =>
    have hlast : s.toList.getLast? = some ' ' := by
      rw [hs, Line.gap, Line.gap, List.replicate_succ']
      simp
    have hpadded {line : Line} (hline : line.text = (Text.strip s).toList) :
        tokenize s = (line.pad n).words :=
      tokenize_of_gaps hs (by rw [Line.text_pad, hline])
    constructor
    · intro hkept
      obtain ⟨line, hline⟩ := exists_line (Text.strip s).toList
      have hclosed : line.isOpen = false := by
        by_contra hopen
        exact hkept ⟨hlast, line, hline, by simpa using hopen⟩
      rw [hstripped hline, hpadded hline, words_pad hclosed]
    · rintro ⟨-, line, hline, hopen⟩
      rw [hstripped hline, hpadded hline]
      exact words_pad_of_isOpen hopen n

/-- The characters of a segment are characters of the line. -/
theorem mem_of_mem_cut {q : Quoting} {cs piece : List Char} (hpiece : piece ∈ cut q cs) :
    ∀ c ∈ piece, c ∈ cs := by
  induction q, cs using cut_induction generalizing piece with
  | nil q => simp_all
  | escape q => simp_all
  | @block q block q' rest _ ih =>
    intro c hc
    obtain ⟨first, others, hcut⟩ := List.exists_cons_of_ne_nil (cut_ne_nil q' rest)
    rw [hcut, foldr_consFirst_cons] at hpiece
    rw [List.mem_append]
    rcases List.mem_cons.mp hpiece with rfl | hlater
    · exact (List.mem_append.mp hc).imp_right (ih (by simp [hcut]) c)
    · exact .inr (ih (by simp [hcut, hlater]) c hc)
  | pipe rest ih =>
    intro c hc
    rcases List.mem_cons.mp hpiece with rfl | hlater
    · cases hc
    · exact List.mem_cons_of_mem _ (ih hlater c hc)

theorem mem_of_mem_rawSegments {line segment : String} (hsegment : segment ∈ rawSegments line) :
    ∀ c ∈ segment.toList, c ∈ line.toList := by
  obtain ⟨piece, hpiece, rfl⟩ := List.mem_map.mp hsegment
  rw [String.toList_ofList]
  exact mem_of_mem_cut hpiece

/-- Which segments of a line have the same words when they are stripped, if all blanks of the line
are spaces: those that do not go on with their last word at the end. In the others that word loses
what was stripped from it, and all words before it stay. So a pipeline is read from the words that
the line holds just if no segment of it is severed. -/
theorem stripped_words (line : String)
    (hspaces : ∀ c ∈ line.toList, Text.isBlank c = true → c = ' ') : (∀ segment ∈ rawSegments line,
      (tokenize (Text.strip segment) = tokenize segment ↔ ¬ Severs segment) ∧
      (Severs segment → ∃ words w w', tokenize segment = words ++ [w] ∧
        tokenize (Text.strip segment) = words ++ [w'] ∧ Loses w w')) ∧
    ((segments line).map tokenize = (rawSegments line).map tokenize ↔
      ∀ segment ∈ rawSegments line, ¬ Severs segment) := by
  have hone (segment : String) (hsegment : segment ∈ rawSegments line) :
      (tokenize (Text.strip segment) = tokenize segment ↔ ¬ Severs segment) ∧
      (Severs segment → ∃ words w w', tokenize segment = words ++ [w] ∧
        tokenize (Text.strip segment) = words ++ [w'] ∧ Loses w w') := by
    have hblanks : ∀ c ∈ segment.toList, Text.isBlank c = true → c = ' ' :=
      fun c hc => hspaces c (mem_of_mem_rawSegments hsegment c hc)
    obtain ⟨hsame, hloses⟩ := tokenize_strip hblanks
    refine ⟨⟨fun heq hsevers => ?_, hsame⟩, hloses⟩
    obtain ⟨words, w, w', hw, hw', hlost⟩ := hloses hsevers
    rw [hw, hw'] at heq
    exact hlost.ne (by simpa using heq.symm)
  refine ⟨hone, ?_⟩
  rw [segments, List.map_map, List.map_inj_left]
  simp only [Function.comp_apply]
  exact forall₂_congr fun segment hsegment => (hone segment hsegment).1

/-- The first segment ends in an escaped space and the last one in an open quote; the one between
them ends in a space that is quoted and one that is not. -/
theorem stripped_words_escaped :
    let line := "echo a\\ | echo ' ' |echo \"b "
    (∀ c ∈ line.toList, Text.isBlank c = true → c = ' ') ∧
      rawSegments line = ["echo a\\ ", " echo ' ' ", "echo \"b "] ∧
      Severs "echo a\\ " ∧ ¬ Severs " echo ' ' " ∧ Severs "echo \"b " ∧
      ¬ (segments line).map tokenize = (rawSegments line).map tokenize := by
  intro line
  have hspaces : ∀ c ∈ line.toList, Text.isBlank c = true → c = ' ' := by simp [line, Text.isBlank]
  have hraw : rawSegments line = ["echo a\\ ", " echo ' ' ", "echo \"b "] := by
    simp [line, rawSegments, cut, consFirst]
  obtain ⟨hone, hall⟩ := stripped_words line hspaces
  have hfirst : Severs "echo a\\ " := by
    by_contra hnot
    have heq := (hone "echo a\\ " (by simp [hraw])).1.mpr hnot
    revert heq
    decide +kernel
  have hlast : Severs "echo \"b " := by
    by_contra hnot
    have heq := (hone "echo \"b " (by simp [hraw])).1.mpr hnot
    revert heq
    decide +kernel
  refine ⟨hspaces, hraw, hfirst, ?_, hlast, fun h => ?_⟩
  · exact (hone " echo ' ' " (by simp [hraw])).1.mp (by decide +kernel)
  · exact hall.mp h _ (by simp [hraw]) hfirst

end Word

end CommandShell
