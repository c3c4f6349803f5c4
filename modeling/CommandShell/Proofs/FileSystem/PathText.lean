import CommandShell.Path
import CommandShell.Proofs.Text.Utf8

/-!
# Texts of paths

The system takes paths as texts of bounded length. The text of a path is no longer than any text
that names the path, and no longer than the text of a name seen from it.

## Main statements

- `Text.intercalate_partsAt`: a text is its parts with the separators between them.
- `Path.size_text_ofText`: the text of a path is the shortest that names it.
- `Path.size_text_le`: a name seen from a path makes its text no shorter.
-/

namespace CommandShell

namespace Text

/-- The parts of a text, with the separators between them, are the text. -/
theorem intercalate_partsAt (separator : Char) (text : String) :
    (String.singleton separator).intercalate (partsAt separator text) = text := by
  have hcut (cs : List Char) : [separator].intercalate (cutWhere (· == separator) cs) = cs := by
    induction cs with
    | nil => rfl
    | cons c cs ih =>
      obtain ⟨first, others, hcs⟩ :=
        List.exists_cons_of_ne_nil (cutWhere_ne_nil (· == separator) cs)
      rw [hcs] at ih
      rw [cutWhere, hcs]
      by_cases hc : c = separator
      · simp [hc, List.intercalate_cons_cons, ih]
      · cases others <;> simp_all [List.intercalate_cons_cons]
  rw [← String.toList_inj, String.toList_intercalate]
  simpa [partsAt, Function.comp_def] using hcut text.toList

theorem cutWhere_append {α : Type} {isBorder : α → Bool} {b : α} (hb : isBorder b = true)
    (as bs : List α) :
    cutWhere isBorder (as ++ b :: bs) = cutWhere isBorder as ++ cutWhere isBorder bs := by
  induction as with
  | nil => simp [cutWhere, hb]
  | cons a as ih =>
    obtain ⟨first, others, has⟩ := List.exists_cons_of_ne_nil (cutWhere_ne_nil isBorder as)
    rw [List.cons_append, cutWhere, cutWhere, ih, has]
    split <;> rfl

theorem cutWhere_of_not {α : Type} {isBorder : α → Bool} {as : List α}
    (h : ∀ a ∈ as, isBorder a = false) : cutWhere isBorder as = [as] := by
  induction as with
  | nil => rfl
  | cons a as ih =>
    have ha : isBorder a = false := h a (by simp)
    simp [cutWhere, ha, ih fun b hb => h b (by simp [hb])]

end Text

namespace Path

/-- A name that a file can have. -/
structure Ordinary (name : String) : Prop where
  ne_empty : name ≠ ""
  ne_point : name ≠ "."
  ne_points : name ≠ ".."
  slash : '/' ∉ name.toList
  null : hasNull name = false

theorem partsOf_append (cs ds : List Char) :
    partsOf (String.ofList (cs ++ '/' :: ds)) = partsOf (String.ofList cs) ++
      partsOf (String.ofList ds) := by
  simp [partsOf, Text.partsAt, @Text.cutWhere_append Char (· == '/') '/' (by simp)]

theorem Ordinary.partsOf {name : String} (h : Ordinary name) : Path.partsOf name = [name] := by
  have hcut : Text.cutWhere (· == '/') name.toList = [name.toList] :=
    Text.cutWhere_of_not fun c hc => by
      have := h.slash
      grind
  simp [Path.partsOf, Text.partsAt, hcut, isPart, h.ne_empty, h.ne_point]

/-- Where a path starts is seen from the front of its text, unless slashes follow slashes. -/
theorem anchorOf_append {cs ds : List Char} (hne : cs ≠ [])
    (h : ds.head? ≠ some '/' ∨ cs.getLast? ≠ some '/') :
    anchorOf (String.ofList (cs ++ ds)) = anchorOf (String.ofList cs) := by
  simp only [anchorOf, String.toList_ofList]
  rcases cs with _ | ⟨a, _ | ⟨b, _ | ⟨c, cs⟩⟩⟩
  · exact absurd rfl hne
  · by_cases ha : a = '/' <;> rcases ds with _ | ⟨d, ds⟩ <;> simp_all
  · by_cases ha : a = '/' <;> by_cases hb : b = '/' <;> rcases ds with _ | ⟨d, ds⟩ <;> simp_all
  · by_cases ha : a = '/' <;> by_cases hb : b = '/' <;> by_cases hc : c = '/' <;> simp_all

/-- A path starts at the root just if its text begins with a slash. -/
theorem isAbsolute_ofText_iff {text : String} : (ofText text).isAbsolute = true ↔
    text.toList.head? = some '/' := by
  rw [isAbsolute, bne_iff_ne, ofText, anchorOf]
  rcases text.toList with _ | ⟨c, cs⟩
  · simp
  · by_cases hc : c = '/'
    · subst hc
      split <;> simp_all
    · simp [hc]

theorem isAbsolute_ofText {text : String} (h : text.toList.head? = some '/') :
    (ofText text).isAbsolute = true :=
  isAbsolute_ofText_iff.mpr h

theorem Ordinary.ofText {name : String} (h : Ordinary name) :
    Path.ofText name = ⟨.relative, [name]⟩ := by
  have hanchor : anchorOf name = .relative := by
    have := h.slash
    unfold anchorOf
    split <;> simp_all
  rw [Path.ofText, hanchor, h.partsOf]

/-- More than two times the same character are a name. -/
theorem ordinary_replicate {c : Char} {n : Nat} (hslash : c ≠ '/') (hnull : c ≠ Char.ofNat 0)
    (hn : 2 < n) : Ordinary (String.ofList (List.replicate n c)) := by
  have hne {text : String} (htext : text.toList.length ≤ 2) :
      String.ofList (List.replicate n c) ≠ text := by
    rintro rfl
    simp at htext
    omega
  refine ⟨hne (by decide), hne (by decide), hne (by decide), ?_, ?_⟩
  · simp [hslash.symm]
  · simp [hasNull, hnull.symm]

/-- A name in a directory is the name seen from the directory. -/
theorem ofText_inDirectory (directory : String) {name : String} (h : Ordinary name) :
    Path.ofText (inDirectory directory name) = (Path.ofText directory).join (Path.ofText name) := by
  have hjoin : (Path.ofText directory).join (Path.ofText name) =
      ⟨anchorOf directory, Path.partsOf directory ++ [name]⟩ := by
    rw [h.ofText]
    rfl
  have hhead : name.toList.head? ≠ some '/' := fun hhead => h.slash (List.mem_of_head? hhead)
  have hname : Path.partsOf (String.ofList name.toList) = [name] := by
    rw [String.ofList_toList, h.partsOf]
  by_cases hempty : directory = ""
  · subst hempty
    rw [hjoin, inDirectory, if_pos (by simp), String.empty_append, h.ofText]
    rfl
  obtain ⟨cs, rfl⟩ : ∃ cs, directory = String.ofList cs :=
    ⟨directory.toList, String.ofList_toList.symm⟩
  have hcs : cs ≠ [] := by simpa using hempty
  rw [hjoin, inDirectory]
  split
  · next hend =>
    -- the slash between them is the one at the end of the directory
    have hlast : cs.getLast? = some '/' := by simpa [hcs] using hend
    obtain ⟨front, rfl⟩ := List.getLast?_eq_some_iff.mp hlast
    have hwhole : String.ofList (front ++ ['/']) ++ name =
        String.ofList (front ++ '/' :: name.toList) := by
      simp [← String.toList_inj]
    have hanchor : anchorOf (String.ofList (front ++ '/' :: name.toList)) =
        anchorOf (String.ofList (front ++ ['/'])) := by
      rw [List.append_cons]
      exact anchorOf_append hcs (.inl hhead)
    have hparts : Path.partsOf (String.ofList (front ++ ['/'])) =
        Path.partsOf (String.ofList front) := by
      rw [partsOf_append, show Path.partsOf (String.ofList []) = [] by decide, List.append_nil]
    rw [hwhole, Path.ofText, hanchor, partsOf_append, hname, hparts]
  · next hend =>
    have hlast : cs.getLast? ≠ some '/' := by
      intro hlast
      simp [hlast] at hend
    have hwhole : String.ofList cs ++ "/" ++ name = String.ofList (cs ++ '/' :: name.toList) := by
      simp [← String.toList_inj]
    rw [hwhole, Path.ofText, anchorOf_append hcs (.inr hlast), partsOf_append, hname]

/-- How many bytes a text has. -/
abbrev size (text : String) : Nat := (Utf8.encode text).length

theorem size_replicate {c : Char} (hc : (Utf8.encodeChar c).length = 1) (n : Nat) :
    size (String.ofList (List.replicate n c)) = n := by
  simp [size, Utf8.encode, hc]

theorem size_append (s t : String) : size (s ++ t) = size s + size t := by
  rw [size, Utf8.encode_append, List.length_append]

theorem size_pos {text : String} (h : text ≠ "") : 0 < size text := by
  rcases hs : text.toList with _ | ⟨c, cs⟩
  · exact absurd (by simpa using hs) h
  · obtain ⟨b, rest, hc, -⟩ := Utf8.begins_encodeChar c
    simp [size, Utf8.encode, hs, hc]

/-- Without some of the names a text with slashes between them is no longer. -/
theorem size_intercalate_filter (p : String → Bool) (names : List String) :
    size ("/".intercalate (names.filter p)) ≤ size ("/".intercalate names) := by
  induction names with
  | nil => exact Nat.le_refl _
  | cons name rest ih =>
    have hname : size name ≤ size ("/".intercalate (name :: rest)) ∧
        size ("/".intercalate rest) ≤ size ("/".intercalate (name :: rest)) := by
      by_cases hrest : rest = []
      · simp [hrest, size, Utf8.encode]
      · simp only [String.intercalate_cons_of_ne_nil hrest, size_append]
        omega
    rw [List.filter_cons]
    split
    · by_cases hkept : rest.filter p = []
      · simp only [hkept, String.intercalate_singleton, hname.1]
      · have hrest : rest ≠ [] := by
          rintro rfl
          exact hkept rfl
        simp only [String.intercalate_cons_of_ne_nil hkept, String.intercalate_cons_of_ne_nil hrest,
          size_append]
        omega
    · exact Nat.le_trans ih hname.2

/-- With one more name the text is longer. -/
theorem size_intercalate_append (names : List String) {name : String} (h : name ≠ "") :
    size ("/".intercalate names) < size ("/".intercalate (names ++ [name])) := by
  have hpos := size_pos h
  by_cases hnames : names = []
  · simpa [hnames, size, Utf8.encode] using hpos
  · rw [String.intercalate_append_of_ne_nil hnames (by simp), String.intercalate_singleton,
      size_append, size_append]
    omega

/-- The text of a path is no longer than that of a name seen from it. -/
theorem size_text_le (p : Path) {name : String} (h : name ≠ "") :
    size p.text ≤ size (p.join ⟨.relative, [name]⟩).text := by
  obtain ⟨anchor, parts⟩ := p
  have hlonger := size_intercalate_append parts h
  cases anchor with
  | relative =>
    have hnot : (parts ++ [name]).isEmpty = false := by simp
    simp only [text, join, isAbsolute, bne_self_eq_false, Bool.false_eq_true, if_false, hnot]
    split
    · next hparts =>
      have hpos := size_pos h
      rw [List.isEmpty_iff.mp hparts, List.nil_append, String.intercalate_singleton]
      exact hpos
    · exact Nat.le_of_lt hlonger
  | root | doubleRoot =>
    simp only [text, join, isAbsolute, bne_self_eq_false, Bool.false_eq_true, if_false, size_append]
    omega

/-- A slash in front adds no name. -/
theorem partsOf_slash (cs : List Char) :
    partsOf (String.ofList ('/' :: cs)) = partsOf (String.ofList cs) := by
  simp [partsOf, Text.partsAt, Text.cutWhere, isPart]

theorem size_partsOf (text : String) : size ("/".intercalate (partsOf text)) ≤ size text := by
  have hall := size_intercalate_filter isPart (Text.partsAt '/' text)
  have hwhole : "/".intercalate (Text.partsAt '/' text) = text := Text.intercalate_partsAt '/' text
  rwa [hwhole] at hall

/-- The text of a path is no longer than any text that names it. -/
theorem size_text_ofText {text : String} (h : text ≠ "") : size (ofText text).text ≤ size text := by
  have hslash (cs : List Char) :
      size (String.ofList ('/' :: cs)) = size "/" + size (String.ofList cs) := by
    rw [← size_append, ← String.ofList_toList (s := "/"), ← String.ofList_append]
    rfl
  obtain ⟨cs, rfl⟩ : ∃ cs, text = String.ofList cs := ⟨text.toList, String.ofList_toList.symm⟩
  have hparts := size_partsOf (String.ofList cs)
  rw [ofText, Path.text]
  split
  · split
    · exact size_pos h
    · exact hparts
  · next hanchor =>
    obtain ⟨cs, rfl⟩ : ∃ rest, cs = '/' :: rest := by
      simp only [anchorOf, String.toList_ofList] at hanchor
      split at hanchor <;> simp_all
    have hparts := size_partsOf (String.ofList cs)
    rw [size_append, partsOf_slash, hslash cs]
    exact Nat.add_le_add_left hparts _
  · next hanchor =>
    obtain ⟨cs, rfl⟩ : ∃ rest, cs = '/' :: '/' :: rest := by
      simp only [anchorOf, String.toList_ofList] at hanchor
      split at hanchor <;> simp_all
    have hparts := size_partsOf (String.ofList cs)
    have htwo : size "//" = size "/" + size "/" := by decide
    rw [size_append, partsOf_slash, partsOf_slash, hslash ('/' :: cs), hslash cs, htwo,
      Nat.add_assoc]
    exact Nat.add_le_add_left (Nat.add_le_add_left hparts _) _

end Path

end CommandShell
