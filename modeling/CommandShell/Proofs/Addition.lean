import CommandShell.Proofs.Persistence
import CommandShell.Proofs.Text.Lines

/-!
# Entries that are added to a file

New entries are written after whatever bytes a file holds. They begin a new line there only if the
file has ended its last one. Otherwise the first of them comes back as the end of the line that was
open, and what was loaded from that line does not come back at all.

## Main statements

- `History.entriesOf_append`: the entries of a file to which entries have been added.
- `History.added_come_back`: the loaded entries and the added ones come back just if no line was
  open.
-/

namespace CommandShell.History

/-- The text that is read from the bytes of a file. -/
def textOf (content : Bytes) : String := Text.unifyNewlines (Utf8.decode content)

/-- The lines of a text that are entries. -/
def entriesIn (text : String) : List String :=
  (Text.splitLines text).filter fun line => !Text.isBlankText line

theorem entriesOf_eq (content : Bytes) : entriesOf content = entriesIn (textOf content) := rfl

theorem not_return_mem_textOf (content : Bytes) : '\r' ∉ (textOf content).toList := by
  rw [textOf, Text.unifyNewlines, String.toList_ofList]
  exact Text.not_mem_unifyFrom (by simp) _

variable {e : String} {es : List String}

/-- What is added begins with no end of line. -/
theorem Storable.head?_joinLines (h : Storable e) :
    (Text.joinLines (e :: es)).toList.head? ≠ some '\n' := by
  have htext := h.text
  rw [Text.toList_joinLines]
  -- an entry that is not blank has a first character
  rcases hchars : e.toList with _ | ⟨c, cs⟩
  · simp [Text.isBlankText, hchars] at htext
  · have hc : Text.isLineBreak c = false := h.line c (by simp [hchars])
    have hne : c ≠ '\n' := by
      rintro rfl
      simp [Text.isLineBreak] at hc
    simp [hchars, hne]

/-- What has been added to a file is read after its text. -/
theorem textOf_append (content : Bytes) (h : ∀ d ∈ e :: es, Storable d) :
    textOf (content ++ Utf8.encode (Text.joinLines (e :: es))) =
      textOf content ++ Text.joinLines (e :: es) := by
  have hfirst : Storable e := h e (by simp)
  rw [textOf, Utf8.decode_append_encode, Text.unifyNewlines, String.toList_append,
    Text.unifyFrom_append (not_return_mem_joinLines h) hfirst.head?_joinLines, String.ofList_append,
      String.ofList_toList]
  rfl

/-- The entries of a file to which entries have been added: the first one goes on with the open
line. -/
theorem entriesOf_append (content : Bytes) (h : ∀ d ∈ e :: es, Storable d) :
    entriesOf (content ++ Utf8.encode (Text.joinLines (e :: es))) =
      entriesIn (Text.endedPart (textOf content)) ++
        (Text.openLine (textOf content) ++ e) :: es := by
  have he := (h e (by simp)).text
  have hglued : (!Text.isBlankText (Text.openLine (textOf content) ++ e)) = true := by
    simp_all [Text.isBlankText]
  have hrest : es.filter (fun line => !Text.isBlankText line) = es :=
    List.filter_eq_self.mpr fun d hd => by simp [(h d (by simp [hd])).text]
  rw [entriesOf_eq, textOf_append content h, entriesIn,
    Text.splitLines_append_joinLines (not_return_mem_textOf content) fun d hd => (h d hd).line,
    List.filter_append, List.filter_cons, if_pos hglued, hrest, ← entriesIn]

/-- The entries of a file: those of the lines that are ended, and the open line unless it is
blank. -/
theorem entriesOf_eq_append (content : Bytes) :
    entriesOf content = entriesIn (Text.endedPart (textOf content)) ++
      if Text.isBlankText (Text.openLine (textOf content)) then []
        else [Text.openLine (textOf content)] := by
  have hopen (line : String) :
      ((if line = "" then [] else [line]).filter fun line => !Text.isBlankText line) =
      if Text.isBlankText line then [] else [line] := by
    by_cases hempty : line = ""
    · simp [hempty, Text.isBlankText]
    · cases hblank : Text.isBlankText line <;> simp [hempty, hblank]
  rw [entriesOf_eq, entriesIn, Text.splitLines_eq (not_return_mem_textOf content),
    List.filter_append, hopen, ← entriesIn]

/-- The entries of a file and those that have been added come back just if the file had ended its
last line. -/
theorem entriesOf_append_iff (content : Bytes) (h : ∀ d ∈ e :: es, Storable d) :
    entriesOf (content ++ Utf8.encode (Text.joinLines (e :: es))) = entriesOf content ++ e :: es ↔
      Text.openLine (textOf content) = "" := by
  rw [entriesOf_append content h, entriesOf_eq_append content, List.append_assoc]
  generalize Text.openLine (textOf content) = line
  split
  · simp
  · next htext =>
    -- the open line was an entry itself
    have hne : line ≠ "" := by
      rintro rfl
      exact htext rfl
    simp [hne]

/-- What has been entered is new until it is stored. -/
theorem foldl_append (h : History) (added : List String) :
    (added.foldl append h).entries = h.entries ++ added ∧
    (added.foldl append h).watermark = h.watermark := by
  induction added generalizing h with
  | nil => simp
  | cons e es ih => simpa using ih (h.append e)

variable {w : World} {p : Path} {place : Place} {content : ByteArray} {executable : Bool}
  {added : List String}

/-- An empty history gets the entries of the file. -/
theorem read_of_bytes {bytes : Bytes} (h : w.read p = .ok bytes) :
    ∃ back, read {} w p = .ok (back, back.entries.length) ∧ back.entries = entriesOf bytes := by
  refine ⟨{ entries := entriesOf bytes }, ?_, by simp⟩
  simp [read, h, Except.map]

/-- An empty history gets the entries of the file, and all of them are stored. -/
theorem load_of_bytes {bytes : Bytes} (h : w.read p = .ok bytes) :
    ∃ loaded, load {} w p = .ok (loaded, loaded.entries.length) ∧ loaded.entries = entriesOf bytes ∧
      loaded.watermark = loaded.entries.length := by
  obtain ⟨back, hback, hentries⟩ := read_of_bytes h
  refine ⟨back.markStored, ?_, hentries, rfl⟩
  rw [load, hback]
  rfl

/-- A file is loaded, entries are added to it and it is read again. What is read are the loaded
entries and the added ones just if nothing was added or the file had ended its last line; else the
first one that was added goes on with that line. -/
theorem added_come_back (hfile : w.Storable p place (some (.file content executable)))
    (hadded : ∀ e ∈ added, Storable e) :
    let text := textOf (unpack content)
    ∃ loaded stored w' back,
      load {} w p = .ok (loaded, loaded.entries.length) ∧ loaded.entries = entriesIn text ∧
      (added.foldl append loaded).appendTo w p = (stored, w', .ok added.length) ∧
      read {} w' p = .ok (back, back.entries.length) ∧
      (∀ e es, added = e :: es →
        back.entries = entriesIn (Text.endedPart text) ++ (Text.openLine text ++ e) :: es) ∧
      (back.entries = loaded.entries ++ added ↔ added = [] ∨ Text.openLine text = "") := by
  intro text
  have hread : w.read p = .ok (unpack content) := by
    exact hfile.read (by simp) hfile.unreadable?
  obtain ⟨loaded, hload, hentries, hwatermark⟩ := load_of_bytes hread
  obtain ⟨hnew, hmark⟩ := foldl_append loaded added
  have hunstored : (added.foldl append loaded).unstored = added := by
    simp [unstored, hnew, hmark, hwatermark]
  cases added with
  | nil =>
    obtain ⟨back, hback, hsame⟩ := read_of_bytes hread
    refine ⟨loaded, loaded, w, back, hload, hentries, ?_, hback, by simp, by simp [hsame, hentries]⟩
    rw [List.foldl_nil] at hunstored ⊢
    simp [appendTo, hunstored]
  | cons e es =>
    obtain ⟨w', content', executable', hwrite, hfile', hbytes, -⟩ :=
      hfile.writeText .append (Text.joinLines (e :: es))
    have hread' : w'.read p = .ok (unpack content ++ Utf8.encode (Text.joinLines (e :: es))) := by
      rw [hfile'.read_eq (by simp), hbytes, if_pos rfl, hfile.bytesAt, FileSystem.held]
    obtain ⟨back, hback, hsame⟩ := read_of_bytes hread'
    refine ⟨loaded, ((e :: es).foldl append loaded).markStored, w', back, hload, hentries, ?_,
      hback, ?_, ?_⟩
    · simp only [appendTo, hunstored, hwrite]
      rfl
    · rintro _ _ ⟨rfl, rfl⟩
      rw [hsame, entriesOf_append _ hadded]
    · rw [hsame, hentries, entriesOf_append_iff _ hadded]
      simp [text]

/-- An entry that is added after an ended line comes back, and one that is added after an open line
does not. -/
theorem added_come_back_after_break :
    let p := Path.ofText "/h"
    (∃ loaded stored w' back, load {} (filed "a\n") p = .ok (loaded, 1) ∧ loaded.entries = ["a"] ∧
      (loaded.append "b").appendTo (filed "a\n") p = (stored, w', .ok 1) ∧
      read {} w' p = .ok (back, 2) ∧ back.entries = ["a", "b"]) ∧
    ∃ loaded stored w' back, load {} (filed "a") p = .ok (loaded, 1) ∧ loaded.entries = ["a"] ∧
      (loaded.append "b").appendTo (filed "a") p = (stored, w', .ok 1) ∧
      read {} w' p = .ok (back, 1) ∧ back.entries = ["ab"] := by
  have hb : ∀ e ∈ ["b"], Storable e := by
    intro e he
    obtain rfl := List.mem_singleton.mp he
    exact ⟨by decide, by decide⟩
  have htext (text : String) :
      textOf (unpack (pack (Utf8.encode text))) = Text.unifyNewlines text := by
    simp [textOf]
  constructor
  · obtain ⟨loaded, stored, w', back, hload, hloaded, hadd, hback, -, hsame⟩ :=
      added_come_back (storable_filed "a\n") hb
    have hentries : entriesIn (Text.unifyNewlines "a\n") = ["a"] := by decide
    have hopen : Text.openLine (Text.unifyNewlines "a\n") = "" := by decide
    rw [htext] at hloaded hsame
    rw [hentries] at hloaded
    have hback' := hsame.mpr (.inr hopen)
    exact ⟨loaded, stored, w', back, by simpa [hloaded] using hload, hloaded, hadd,
      by simpa [hback', hloaded] using hback, by simp [hback', hloaded]⟩
  · obtain ⟨loaded, stored, w', back, hload, hloaded, hadd, hback, hglued, -⟩ :=
      added_come_back (storable_filed "a") hb
    have hentries : entriesIn (Text.unifyNewlines "a") = ["a"] := by decide
    have hended : entriesIn (Text.endedPart (Text.unifyNewlines "a")) = [] := by decide
    have hopen : Text.openLine (Text.unifyNewlines "a") = "a" := by decide
    rw [htext] at hloaded hglued
    rw [hentries] at hloaded
    have hback' : back.entries = ["ab"] := by
      rw [hglued "b" [] rfl, hended, hopen]
      decide
    exact ⟨loaded, stored, w', back, by simpa [hloaded] using hload, hloaded, hadd,
      by simpa [hback'] using hback, hback'⟩

end CommandShell.History
