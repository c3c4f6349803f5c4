import CommandShell.History
import CommandShell.Proofs.Text.Trimming
import CommandShell.Proofs.Text.Utf8

/-!
# Entries that are stored line by line

Entries are stored with a line feed after each, but are read with ten ends of line, and blank lines
are skipped. So they are read as they were stored just when each of them is one line and not blank.

What is added to a text one entry to a line begins where the text ends: if its last line is open,
with that line.

## Main statements

- `Text.splitLines_joinLines`: single lines are split where they were joined.
- `Text.splitLines_append_joinLines`: the lines of a text to which single lines have been added.
- `Text.unifyFrom_append`: what is added to a text is read on its own.
- `History.entriesOf_encode_joinLines`: the entries that come back as they were stored.
-/

namespace CommandShell

namespace Text

/-- A text with no character that ends a line. -/
def IsLine (s : String) : Prop := ∀ c ∈ s.toList, isLineBreak c = false

instance (s : String) : Decidable (IsLine s) :=
  List.decidableBAll (fun c => isLineBreak c = false) s.toList

/-- No line of a text has an end of line within. -/
theorem not_isLineBreak_of_linesFrom {begun : Option (List Char)} {cs line : List Char} {c : Char}
    (hbegun : ∀ c ∈ begun.getD [], isLineBreak c = false) (hline : line ∈ linesFrom begun cs)
    (hc : c ∈ line) : isLineBreak c = false := by
  fun_induction linesFrom begun cs with
  | case1 => cases hline
  | case2 line' =>
    obtain rfl := List.mem_singleton.mp hline
    exact hbegun c (by simpa using hc)
  | case3 begun rest ih | case4 begun d rest _ hbreak ih =>
    rcases List.mem_cons.mp hline with rfl | hrest
    · exact hbegun c (by simpa using hc)
    · exact ih (by simp) hrest
  | case5 begun d rest _ hbreak ih =>
    refine ih (fun c' hc' => ?_) hline
    rcases List.mem_cons.mp hc' with rfl | hold
    · simpa using hbreak
    · exact hbegun c' hold

theorem isLine_of_mem_splitLines {s line : String} (h : line ∈ splitLines s) : IsLine line := by
  obtain ⟨cs, hcs, rfl⟩ := List.mem_map.mp h
  intro c hc
  exact not_isLineBreak_of_linesFrom (by simp) hcs (by simpa using hc)

theorem ne_return_of_not_isLineBreak {c : Char} (h : isLineBreak c = false) : c ≠ '\r' := by
  rintro rfl
  simp [isLineBreak] at h

/-- A character that is no carriage return ends the line or goes on with it, whatever comes next. -/
theorem linesFrom_cons {c : Char} (hc : c ≠ '\r') (begun : Option (List Char)) (rest : List Char) :
    linesFrom begun (c :: rest) =
      if isLineBreak c then (begun.getD []).reverse :: linesFrom none rest
      else linesFrom (some (c :: begun.getD [])) rest := by
  rw [linesFrom.eq_def]
  cases begun <;> simp [hc]

/-- A line is read up to the line feed after it. -/
theorem linesFrom_line {cs : List Char} (hcs : ∀ c ∈ cs, isLineBreak c = false) (rest : List Char)
    (begun : Option (List Char)) :
    linesFrom begun (cs ++ '\n' :: rest) =
      ((begun.getD []).reverse ++ cs) :: linesFrom none rest := by
  induction cs generalizing begun with
  | nil => simp [linesFrom_cons, isLineBreak]
  | cons c cs ih =>
    have hc : isLineBreak c = false := hcs c (by simp)
    have ih := ih fun d hd => hcs d (by simp [hd])
    rw [List.cons_append, linesFrom_cons (ne_return_of_not_isLineBreak hc)]
    simp [hc, ih]

theorem toList_joinLines (entries : List String) :
    (joinLines entries).toList = entries.flatMap fun e => e.toList ++ ['\n'] := by
  induction entries with
  | nil => simp [joinLines]
  | cons e es ih => simp_all [joinLines, String.join_cons]

/-- Single lines that have been joined are split where they were joined. -/
theorem splitLines_joinLines {entries : List String} (h : ∀ e ∈ entries, IsLine e) :
    splitLines (joinLines entries) = entries := by
  unfold splitLines
  rw [toList_joinLines]
  induction entries with
  | nil => rfl
  | cons e es ih =>
    have he := linesFrom_line (h e (by simp)) (es.flatMap fun e => e.toList ++ ['\n']) none
    have ih := ih fun d hd => h d (by simp [hd])
    simp_all

/-- After an end of line the lines are those of what comes next. -/
theorem linesFrom_append_break {cs : List Char} {c : Char} (hreturn : '\r' ∉ cs ++ [c])
    (hbreak : isLineBreak c = true) (begun : Option (List Char)) (rest : List Char) :
    linesFrom begun (cs ++ c :: rest) = linesFrom begun (cs ++ [c]) ++ linesFrom none rest := by
  induction cs generalizing begun with
  | nil =>
    have hc : c ≠ '\r' := by grind
    simp [linesFrom_cons hc, hbreak, linesFrom]
  | cons d cs ih =>
    have hd : d ≠ '\r' := by grind
    have ih := fun begun => ih (by grind) begun
    rw [List.cons_append, List.cons_append, linesFrom_cons hd, linesFrom_cons hd]
    split
    · rw [ih, List.cons_append]
    · rw [ih]

/-- The line at the end of a text that has not been ended. -/
def openLine (s : String) : String :=
  String.ofList (s.toList.reverse.takeWhile fun c => !isLineBreak c).reverse

/-- The text up to its last end of line. -/
def endedPart (s : String) : String :=
  String.ofList (s.toList.reverse.dropWhile fun c => !isLineBreak c).reverse

theorem endedPart_append_openLine (s : String) : endedPart s ++ openLine s = s := by
  rw [endedPart, openLine, ← String.ofList_append, ← List.reverse_append,
    List.takeWhile_append_dropWhile, List.reverse_reverse, String.ofList_toList]

theorem isLine_openLine (s : String) : IsLine (openLine s) := by
  intro c hc
  rw [openLine, String.toList_ofList, List.mem_reverse] at hc
  have hall := List.all_eq_true.mp (List.all_takeWhile (l := s.toList.reverse)) c hc
  simpa using hall

/-- Up to the last end of line a text is nothing, or ends in it. -/
theorem endedPart_eq (s : String) :
    endedPart s = "" ∨ ∃ cs c, (endedPart s).toList = cs ++ [c] ∧ isLineBreak c = true := by
  rcases h : s.toList.reverse.dropWhile fun c => !isLineBreak c with _ | ⟨c, cs⟩
  · exact .inl (by simp [endedPart, h])
  · have hbreak :=
      List.head_dropWhile_not (fun c => !isLineBreak c) (l := s.toList.reverse) (by simp [h])
    simp only [h, List.head_cons] at hbreak
    exact .inr ⟨cs.reverse, c, by simp [endedPart, h], by simpa using hbreak⟩

theorem mem_of_mem_endedPart {s : String} {c : Char} (h : c ∈ (endedPart s).toList) :
    c ∈ s.toList := by
  rw [← endedPart_append_openLine s]
  simp [h]

/-- The lines up to the last end of line come first. -/
theorem splitLines_endedPart_append {s : String} (hreturn : '\r' ∉ s.toList) (t : String) :
    splitLines (endedPart s ++ t) = splitLines (endedPart s) ++ splitLines t := by
  obtain hnone | ⟨cs, c, hended, hbreak⟩ := endedPart_eq s
  · simp [hnone, splitLines, linesFrom]
  · have hreturn : '\r' ∉ cs ++ [c] := by
      rw [← hended]
      exact fun h => hreturn (mem_of_mem_endedPart h)
    have hlines := linesFrom_append_break hreturn hbreak none t.toList
    simp_all [splitLines]

/-- A line that is not ended is the last one. -/
theorem linesFrom_some {cs : List Char} (hcs : ∀ c ∈ cs, isLineBreak c = false)
    (begun : List Char) : linesFrom (some begun) cs = [begun.reverse ++ cs] := by
  induction cs generalizing begun with
  | nil => simp [linesFrom]
  | cons c cs ih =>
    have hc : isLineBreak c = false := hcs c (by simp)
    rw [linesFrom_cons (ne_return_of_not_isLineBreak hc), ih fun d hd => hcs d (by simp [hd])]
    simp [hc]

theorem splitLines_of_isLine {s : String} (h : IsLine s) :
    splitLines s = if s = "" then [] else [s] := by
  rcases hs : s.toList with _ | ⟨c, cs⟩
  · have hempty : s = "" := by simpa using hs
    simp [hempty, splitLines, linesFrom]
  · have hc : isLineBreak c = false := h c (by simp [hs])
    have hne : s ≠ "" := by
      rintro rfl
      simp at hs
    rw [splitLines, hs, linesFrom_cons (ne_return_of_not_isLineBreak hc), hc, if_neg (by simp),
      linesFrom_some fun d hd => h d (by simp [hs, hd])]
    simp [hne, ← hs]

/-- The lines of a text: those that are ended, and the open one, if there is any. -/
theorem splitLines_eq {s : String} (hreturn : '\r' ∉ s.toList) :
    splitLines s = splitLines (endedPart s) ++ (if openLine s = "" then [] else [openLine s]) :=
  calc splitLines s = splitLines (endedPart s ++ openLine s) := by rw [endedPart_append_openLine]
    _ = splitLines (endedPart s) ++ splitLines (openLine s) := splitLines_endedPart_append hreturn _
    _ = _ := by rw [splitLines_of_isLine (isLine_openLine s)]

/-- What is added to a text one entry to a line goes on with its open line. -/
theorem splitLines_append_joinLines {s : String} (hreturn : '\r' ∉ s.toList) {e : String}
    {es : List String} (h : ∀ d ∈ e :: es, IsLine d) :
    splitLines (s ++ joinLines (e :: es)) = splitLines (endedPart s) ++
      (openLine s ++ e) :: es := by
  have hglued : IsLine (openLine s ++ e) := by
    intro c hc
    rcases List.mem_append.mp (String.toList_append .. ▸ hc) with hopen | hnew
    · exact isLine_openLine s c hopen
    · exact h e (by simp) c hnew
  have hjoined : openLine s ++ joinLines (e :: es) = joinLines ((openLine s ++ e) :: es) := by
    simp [joinLines, String.join_cons, String.append_assoc]
  have hall : ∀ d ∈ (openLine s ++ e) :: es, IsLine d := by grind
  calc splitLines (s ++ joinLines (e :: es))
      = splitLines (endedPart s ++ joinLines ((openLine s ++ e) :: es)) := by
        rw [← hjoined, ← String.append_assoc, endedPart_append_openLine]
    _ = splitLines (endedPart s) ++ splitLines (joinLines ((openLine s ++ e) :: es)) :=
        splitLines_endedPart_append hreturn _
    _ = _ := by rw [splitLines_joinLines hall]

/-- Characters with no carriage return among them are read as they are. -/
theorem unifyFrom_of_not_mem {cs : List Char} (h : '\r' ∉ cs) (seen : List Char) :
    unifyFrom seen cs = seen.reverse ++ cs := by
  induction cs generalizing seen with
  | nil => simp [unifyFrom]
  | cons c cs ih =>
    have hc : c ≠ '\r' := by grind
    have ih := ih (by grind) (c :: seen)
    rw [unifyFrom.eq_def]
    simp_all

/-- A text without a carriage return is read as it is. -/
theorem unifyNewlines_eq_self {s : String} (h : '\r' ∉ s.toList) : unifyNewlines s = s := by
  simp [unifyNewlines, unifyFrom_of_not_mem h]

/-- No carriage return is read from a file. -/
theorem not_mem_unifyFrom {seen : List Char} (h : '\r' ∉ seen) (cs : List Char) :
    '\r' ∉ unifyFrom seen cs := by
  fun_induction unifyFrom seen cs <;> grind

/-- What comes after a text is read on its own if it does not go on with an end of line. -/
theorem unifyFrom_append {added : List Char} (hreturn : '\r' ∉ added)
    (hhead : added.head? ≠ some '\n') (seen cs : List Char) :
      unifyFrom seen (cs ++ added) = unifyFrom seen cs ++ added := by
  fun_induction unifyFrom seen cs with
  | case1 seen => exact unifyFrom_of_not_mem hreturn seen
  | case2 seen rest ih => simpa [unifyFrom] using ih
  | case3 seen c rest hpair ih =>
    -- a carriage return at the end of the text stays alone
    have hpair' (tail : List Char) (hc : c = '\r') : rest ++ added = '\n' :: tail → False := by
      cases rest with
      | nil => grind
      | cons d rest =>
        intro heq
        exact hpair rest hc (by grind)
    rw [List.cons_append, unifyFrom.eq_3 _ _ _ hpair', ih]

/-- What a text is but for the blank characters at its ends. -/
theorem strip_around (s : String) :
    ∃ before after, s.toList = before ++ (strip s).toList ++ after ∧
      (∀ c ∈ before, isBlank c = true) ∧ ∀ c ∈ after, isBlank c = true := by
  rw [toList_strip, stripChars_eq_trimmed]
  exact exists_trimmed isBlank s.toList

/-- The characters that are left when blanks are removed at the ends. -/
theorem mem_of_mem_strip {s : String} {c : Char} (h : c ∈ (strip s).toList) : c ∈ s.toList := by
  obtain ⟨before, after, hs, -, -⟩ := strip_around s
  rw [hs]
  simp [h]

/-- What is left when blanks are removed does not end in one. -/
theorem isBlank_getLast_strip {s : String} {c : Char} (h : (strip s).toList.getLast? = some c) :
    isBlank c = false := by
  rw [toList_strip, stripChars_eq_trimmed] at h
  exact getLast?_trimmed h

/-- What is left when blanks are removed is nothing, or not blank. -/
theorem isBlankText_strip {s : String} (h : strip s ≠ "") : isBlankText (strip s) = false := by
  have hne : (strip s).toList ≠ [] := by simpa using h
  have hlast := List.getLast?_eq_some_getLast hne
  rw [isBlankText, List.all_eq_false]
  exact ⟨_, List.getLast_mem hne, by simpa using isBlank_getLast_strip hlast⟩

end Text

namespace History

/-- An entry that can be stored on a line of its own. -/
structure Storable (entry : String) : Prop where
  line : Text.IsLine entry
  text : Text.isBlankText entry = false

theorem storable_of_mem_entriesOf {content : Bytes} {entry : String}
    (h : entry ∈ entriesOf content) : Storable entry := by
  obtain ⟨hline, htext⟩ := List.mem_filter.mp h
  exact ⟨Text.isLine_of_mem_splitLines hline, by simpa using htext⟩

theorem not_return_mem_joinLines {entries : List String} (h : ∀ e ∈ entries, Storable e) :
    '\r' ∉ (Text.joinLines entries).toList := by
  rw [Text.toList_joinLines]
  simp only [List.mem_flatMap, List.mem_append, List.mem_singleton, not_exists, not_and, not_or]
  intro e he
  exact ⟨fun hc => Text.ne_return_of_not_isLineBreak ((h e he).line _ hc) rfl, by decide⟩

/-- Entries come back as they were stored just when each is one line and not blank. -/
theorem entriesOf_encode_joinLines (entries : List String) :
    entriesOf (Utf8.encode (Text.joinLines entries)) = entries ↔ ∀ e ∈ entries, Storable e := by
  constructor
  · intro h e he
    exact storable_of_mem_entriesOf (h ▸ he)
  · intro h
    unfold entriesOf
    rw [Utf8.decode_encode, Text.unifyNewlines_eq_self (not_return_mem_joinLines h),
      Text.splitLines_joinLines fun e he => (h e he).line]
    exact List.filter_eq_self.mpr fun e he => by simpa using (h e he).text

end History

end CommandShell
