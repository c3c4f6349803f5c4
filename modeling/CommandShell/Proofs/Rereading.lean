import CommandShell.Proofs.Addition

/-!
# Files that are read again

Whatever bytes a file holds, its entries are single lines that are not blank, and they hold all of
its text but for blanks. Stored in any file they come back as they are, so that a file is brought
into its normal form by reading it once.

## Main statements

- `History.solid_entriesOf`: the entries of a file hold all that is not blank.
- `History.reread`: the entries of any file are stored and read again.
-/

namespace CommandShell

namespace Text

/-- The characters that are not blank. -/
def solid (cs : List Char) : List Char := cs.filter fun c => !isBlank c

@[simp] theorem solid_append (cs ds : List Char) : solid (cs ++ ds) = solid cs ++ solid ds :=
  List.filter_append ..

@[simp] theorem solid_cons_of_isBlank {c : Char} (h : isBlank c = true) (cs : List Char) :
    solid (c :: cs) = solid cs := by
  simp [solid, h]

/-- An end of line is blank. -/
theorem isBlank_of_isLineBreak {c : Char} (h : isLineBreak c = true) : isBlank c = true := by
  simp only [isLineBreak, Bool.or_eq_true, Bool.and_eq_true, decide_eq_true_eq, beq_iff_eq] at h
  simp only [isBlank, Bool.or_eq_true, Bool.and_eq_true, decide_eq_true_eq, beq_iff_eq]
  omega

/-- The lines of a text lack its ends of line only. -/
theorem solid_linesFrom (begun : Option (List Char)) (cs : List Char) :
    solid (linesFrom begun cs).flatten = solid ((begun.getD []).reverse ++ cs) := by
  fun_induction linesFrom begun cs with
  | case1 => rfl
  | case2 line => simp
  | case3 begun rest ih =>
    have hreturn : isBlank '\r' = true := by decide
    have hfeed : isBlank '\n' = true := by decide
    simp [ih, hreturn, hfeed]
  | case4 begun c rest _ hbreak ih => simp [ih, isBlank_of_isLineBreak hbreak]
  | case5 begun c rest _ _ ih => simp [ih]

/-- What is read from a file differs from its text in ends of line only. -/
theorem solid_unifyFrom (seen cs : List Char) :
    solid (unifyFrom seen cs) = solid (seen.reverse ++ cs) := by
  have hreturn : isBlank '\r' = true := by decide
  have hfeed : isBlank '\n' = true := by decide
  fun_induction unifyFrom seen cs with
  | case1 => simp
  | case2 seen rest ih => simp [ih, hreturn, hfeed]
  | case3 seen c rest _ ih =>
    rw [ih]
    split
    · next hc => simp [hc, hreturn, hfeed]
    · simp

/-- Blank texts can be left out. -/
theorem solid_flatten_filter (texts : List String) :
    solid ((texts.filter fun text => !isBlankText text).map String.toList).flatten =
      solid (texts.map String.toList).flatten := by
  induction texts with
  | nil => rfl
  | cons text rest ih =>
    cases hblank : isBlankText text with
    | false => simp [hblank, ih]
    | true =>
      have hnone : solid text.toList = [] := by
        simpa [solid, isBlankText] using hblank
      simp [hblank, ih, hnone]

end Text

namespace History

/-- The entries of a file hold, in order, all of its characters that are not blank. -/
theorem solid_entriesOf (content : Bytes) :
    Text.solid ((entriesOf content).map String.toList).flatten =
      Text.solid (Utf8.decode content).toList := by
  have hlines : (Text.splitLines (textOf content)).map String.toList =
      Text.linesFrom none (textOf content).toList := by
    simp [Text.splitLines, Function.comp_def]
  calc Text.solid ((entriesOf content).map String.toList).flatten
      = Text.solid (Text.linesFrom none (textOf content).toList).flatten := by
        rw [entriesOf_eq, entriesIn, Text.solid_flatten_filter, hlines]
    _ = Text.solid (textOf content).toList := by
        rw [Text.solid_linesFrom, Option.getD_none, List.reverse_nil, List.nil_append]
    _ = Text.solid (Utf8.decode content).toList := by
        rw [textOf, Text.unifyNewlines, String.toList_ofList, Text.solid_unifyFrom,
          List.reverse_nil, List.nil_append]

/-- Entries that can be stored come back from the file in which they were stored, to a history of
their own. -/
theorem write_read {entries : List String} (h : ∀ e ∈ entries, Storable e) (mark : Nat)
    {w : World} {p : Path} {place : Place} {node : Option Node} (hp : w.Storable p place node) :
    ∃ w', write ⟨entries, mark⟩ w p = (⟨entries, entries.length⟩, w', .ok ()) ∧
      read {} w' p = .ok (⟨entries, 0⟩, entries.length) := by
  obtain ⟨w', _, _, hwrite, hstored, hbytes, -⟩ := hp.writeText .truncate (Text.joinLines entries)
  have hread : w'.read p = .ok (Utf8.encode (Text.joinLines entries)) := by
    rw [hstored.read_eq (by simp), hbytes]
    rfl
  refine ⟨w', ?_, ?_⟩
  · rw [write, hwrite]
    rfl
  · rw [read, hread]
    simp [Except.map, (entriesOf_encode_joinLines entries).mpr h]

/-- The entries of a file are added behind those of a history, and what the history has stored is
not touched. Each is one line and not blank, together they hold what the file holds but for blanks,
and they come back as they are from any file in which they are stored. -/
theorem reread (h : History) {w : World} {p : Path} {content : Bytes}
    (hread : w.read p = .ok content) :
    ∃ added, h.read w p = .ok (⟨h.entries ++ added, h.watermark⟩, added.length) ∧
      (∀ e ∈ added, Text.IsLine e ∧ Text.isBlankText e = false) ∧
      Text.solid (added.map String.toList).flatten = Text.solid (Utf8.decode content).toList ∧
      ∀ (mark : Nat) (v : World) (q : Path) (place : Place) (node : Option Node),
        v.Storable q place node →
        ∃ v', write ⟨added, mark⟩ v q = (⟨added, added.length⟩, v', .ok ()) ∧
          read {} v' q = .ok (⟨added, 0⟩, added.length) := by
  have hstorable : ∀ e ∈ entriesOf content, Storable e := fun e he => storable_of_mem_entriesOf he
  refine ⟨entriesOf content, ?_, fun e he => ⟨(hstorable e he).line, (hstorable e he).text⟩,
    solid_entriesOf content, fun mark v q place node hq => write_read hstorable mark hq⟩
  simp [read, hread, Except.map]

/-- A file with both kinds of line feed, other ends of line, blank lines and a byte that encodes
nothing is read, and what was read is stored in its place. -/
theorem reread_mixed :
    let content : Bytes := [97, 13, 10, 255, 28, 32, 10, 98]
    let w : World := { files := { nodes := [(["h"], .file (pack content) false)] } }
    let p := Path.ofText "/h"
    w.read p = .ok content ∧ ∃ w',
      read ⟨["z"], 1⟩ w p = .ok (⟨["z", "a", "\uFFFD", "b"], 1⟩, 3) ∧
        write ⟨["a", "\uFFFD", "b"], 0⟩ w p = (⟨["a", "\uFFFD", "b"], 3⟩, w', .ok ()) ∧
        read {} w' p = .ok (⟨["a", "\uFFFD", "b"], 0⟩, 3) := by
  intro content w p
  have hfile : w.Storable p ["h"] (some (.file (pack content) false)) := storable_single _
  have hread : w.read p = .ok content := by
    rw [hfile.read_eq (by simp), hfile.bytesAt, FileSystem.held, unpack_pack]
  have hentries : entriesOf content = ["a", "\uFFFD", "b"] := by decide
  obtain ⟨added, hadded, -, -, hback⟩ := reread ⟨["z"], 1⟩ hread
  obtain ⟨rfl, -⟩ : added = ["a", "\uFFFD", "b"] ∧ added.length = 3 := by
    simpa [read, hread, Except.map, hentries, eq_comm] using hadded
  obtain ⟨w', hwrite, hagain⟩ := hback 0 w p _ _ hfile
  exact ⟨hread, w', hadded, hwrite, hagain⟩

end History

end CommandShell
