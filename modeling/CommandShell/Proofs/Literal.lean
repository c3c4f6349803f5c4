import CommandShell.Proofs.Refusal
import CommandShell.Proofs.Spelling

/-!
# Words that stand for themselves

A text is read as one word, and as itself, just if it holds no space and no quote, and no backslash
but as its last character. Behind blanks and before a space even that backslash is lost.

## Main definitions

* `Word.IsLiteral`: the texts that stand for themselves.
* `Word.Yields`: what is left of a spelling when quotes and escaping backslashes are taken away.

## Main statements

* `Word.isLiteral_of_mem_tokenize`: a word that is as long as the line is the line.
* `Word.tokenize_typed_iff`: a text behind blanks and before a space.
* `Word.length_cut_of_literal`: a literal text is divided at each of its pipes.
-/

namespace CommandShell.Word

/-- A text that stands for itself. A backslash at its end has nothing to escape. -/
structure IsLiteral (cs : List Char) : Prop where
  ne_nil : cs ≠ []
  ordinary : ∀ c ∈ cs, c ≠ ' ' ∧ c ≠ '\'' ∧ c ≠ '"'
  backslash : '\\' ∉ cs.dropLast

/-! ## What is lost in reading -/

/-- A text keeps its spaces when it is read. If some of it is quoted, it becomes shorter. -/
structure Yields (text value : List Char) (quoted : Bool) : Prop where
  count_space : value.count ' ' = text.count ' '
  length_le : value.length + quoted.toNat ≤ text.length

namespace Yields

theorem refl (text : List Char) : Yields text text false := ⟨rfl, Nat.le_refl _⟩

theorem append {text value text' value' : List Char} {quoted quoted' : Bool}
    (h : Yields text value quoted) (h' : Yields text' value' quoted') :
      Yields (text ++ text') (value ++ value') (quoted || quoted') where
  count_space := by rw [List.count_append, List.count_append, h.count_space, h'.count_space]
  length_le := by
    have hquoted : (quoted || quoted').toNat ≤ quoted.toNat + quoted'.toNat := by
      cases quoted <;> cases quoted' <;> decide
    have := h.length_le
    have := h'.length_le
    simp only [List.length_append]
    omega

/-- A character before the text quotes it. -/
theorem cons {c : Char} {text value : List Char} {quoted : Bool} (h : Yields text value quoted)
    (hc : c ≠ ' ') : Yields (c :: text) value true where
  count_space := by rw [h.count_space, List.count_cons_of_ne hc]
  length_le := by
    have := h.length_le
    simp only [List.length_cons, Bool.toNat_true]
    omega

/-- A character behind the text closes it. -/
theorem snoc {c : Char} {text value : List Char} {quoted : Bool} (h : Yields text value quoted)
    (hc : c ≠ ' ') : Yields (text ++ [c]) value quoted where
  count_space := by simp [h.count_space, hc]
  length_le := by
    have := h.length_le
    simp only [List.length_append]
    omega

end Yields

theorem Item.yields (item : Item) : Yields item.text item.value false := by
  cases item with
  | char c ordinary => exact .refl _
  | escape c escapable => exact ⟨by simp [text, value], by simp [text, value]⟩
  | keep c kept => exact .refl _

theorem yields_items (items : List Item) :
    Yields (items.flatMap Item.text) (items.flatMap Item.value) false := by
  induction items with
  | nil => exact .refl _
  | cons item items ih => exact item.yields.append ih

theorem Piece.yields (p : Piece) : Yields p.text p.value p.isQuoted := by
  cases p with
  | char c ordinary => exact .refl _
  | escape c => exact (Yields.refl [c]).cons (by decide)
  | single run closed => exact ((Yields.refl run).snoc (by decide)).cons (by decide)
  | double items => exact ((yields_items items).snoc (by decide)).cons (by decide)

theorem yields_pieces (pieces : List Piece) :
    Yields (pieces.flatMap Piece.text) (pieces.flatMap Piece.value)
      (pieces.any Piece.isQuoted) := by
  induction pieces with
  | nil => exact .refl _
  | cons p pieces ih => exact p.yields.append ih

theorem Ending.yields (e : Ending) : Yields e.text e.value e.isQuoted := by
  cases e with
  | single run unclosed => exact (Yields.refl run).cons (by decide)
  | double items b => exact ((yields_items items).append (.refl (lone b))).cons (by decide)
  | backslash => exact .refl _

/-- A word is read from a stretch of the line. -/
theorem exists_yields {line : Line} {w : Word} (hw : w ∈ line.words) :
    ∃ stretch, stretch <:+: line.text ∧ Yields stretch w.text.toList w.quoted := by
  obtain ⟨s, rfl, hin⟩ | ⟨s, rfl, hin⟩ := exists_spelling hw
  · exact ⟨s.text, hin, by simpa [Spelling.word, Spelling.text] using yields_pieces s.pieces⟩
  · refine ⟨s.text, hin.isInfix, ?_⟩
    simpa [OpenSpelling.word, OpenSpelling.text] using (yields_pieces s.pieces).append
      s.ending.yields

/-! ## Unquoted words -/

theorem ordinary_of_unquoted {pieces : List Piece} (h : pieces.any Piece.isQuoted = false) :
    (∀ c ∈ pieces.flatMap Piece.text, c ≠ ' ' ∧ c ≠ '\'' ∧ c ≠ '"') ∧
      '\\' ∉ pieces.flatMap Piece.text := by
  have hall : ∀ c ∈ pieces.flatMap Piece.text, c ≠ ' ' ∧ c ≠ '\'' ∧ c ≠ '"' ∧ c ≠ '\\' := by
    intro c hc
    obtain ⟨p, hp, hc⟩ := List.mem_flatMap.mp hc
    have hunquoted := List.any_eq_false.mp h p hp
    cases p with
    | char d ordinary =>
      obtain rfl := List.mem_singleton.mp hc
      exact ordinary
    | _ => simp [Piece.isQuoted] at hunquoted
  exact ⟨fun c hc => ⟨(hall c hc).1, (hall c hc).2.1, (hall c hc).2.2.1⟩, fun hc =>
    (hall _ hc).2.2.2 rfl⟩

/-- A word of which nothing is quoted stands for itself. If it ends in a backslash, so does the
line. -/
theorem isLiteral_of_unquoted {line : Line} {w : Word} (hw : w ∈ line.words)
    (hquoted : w.quoted = false) :
    IsLiteral w.text.toList ∧ ('\\' ∈ w.text.toList → w.text.toList <:+ line.text) := by
  have hne := (infix_of_unquoted hw hquoted).1
  obtain ⟨s, rfl, -⟩ | ⟨s, rfl, hin⟩ := exists_spelling hw
  · obtain ⟨hordinary, hescape⟩ := ordinary_of_unquoted hquoted
    rw [Spelling.word_of_unquoted hquoted] at hne ⊢
    exact ⟨⟨hne, hordinary, fun hc => hescape (List.mem_of_mem_dropLast hc)⟩, fun hc =>
      absurd hc hescape⟩
  · obtain ⟨hpieces, hending⟩ := Bool.or_eq_false_iff.mp hquoted
    obtain ⟨hordinary, hescape⟩ := ordinary_of_unquoted hpieces
    have hbackslash : s.text = s.pieces.flatMap Piece.text ++ ['\\'] := by
      cases he : s.ending with
      | backslash => simp [OpenSpelling.text, he, Ending.text]
      | _ => simp [he, Ending.isQuoted] at hending
    rw [OpenSpelling.word_of_unquoted hquoted] at hne ⊢
    refine ⟨⟨hne, fun c hc => ?_, by rwa [hbackslash, List.dropLast_concat]⟩, fun _ => hin⟩
    rw [hbackslash, List.mem_append, List.mem_singleton] at hc
    rcases hc with hc | rfl
    · exact hordinary c hc
    · decide

/-- In a line of which nothing is quoted or escaped no word is. -/
theorem unquoted_of_ordinary {line : Line} {w : Word} (hw : w ∈ line.words)
    (hline : ∀ c ∈ line.text, c ≠ '\'' ∧ c ≠ '"' ∧ c ≠ '\\') : w.quoted = false := by
  -- what quotes a piece is its first character
  have hpieces (pieces : List Piece) (h : ∀ c ∈ pieces.flatMap Piece.text, c ∈ line.text) :
      pieces.any Piece.isQuoted = false := by
    refine List.any_eq_false.mpr fun p hp => ?_
    have hall (c : Char) (hc : c ∈ p.text) := hline c (h c (List.mem_flatMap.mpr ⟨p, hp, hc⟩))
    cases p with
    | char c ordinary => simp [Piece.isQuoted]
    | _ => simp [Piece.text] at hall
  obtain ⟨s, rfl, hin⟩ | ⟨s, rfl, hin⟩ := exists_spelling hw
  · exact hpieces s.pieces fun c hc => hin.subset hc
  · refine Bool.or_eq_false_iff.mpr ⟨hpieces s.pieces fun c hc =>
      hin.subset (List.mem_append_left _ hc), ?_⟩
    have hall (c : Char) (hc : c ∈ s.ending.text) :=
      hline c (hin.subset (List.mem_append_right _ hc))
    cases he : s.ending with
    | backslash => rfl
    | _ => simp [he, Ending.text] at hall

/-! ## Reading a literal text -/

theorem exists_pieces {cs : List Char} (hordinary : ∀ c ∈ cs, c ≠ ' ' ∧ c ≠ '\'' ∧ c ≠ '"')
    (hescape : '\\' ∉ cs) :
    ∃ pieces : List Piece, pieces.flatMap Piece.text = cs ∧ pieces.any Piece.isQuoted = false := by
  induction cs with
  | nil => exact ⟨[], rfl, rfl⟩
  | cons c cs ih =>
    obtain ⟨pieces, htext, hquoted⟩ :=
      ih (fun d hd => hordinary d (List.mem_cons_of_mem c hd)) (fun hmem =>
        hescape (List.mem_cons_of_mem c hmem))
    obtain ⟨hspace, hsingle, hdouble⟩ := hordinary c (List.mem_cons_self ..)
    have hc : c ≠ '\\' := fun hc => hescape (hc ▸ List.mem_cons_self ..)
    exact ⟨.char c ⟨hspace, hsingle, hdouble, hc⟩ :: pieces, by simp [Piece.text, htext],
      by simp [Piece.isQuoted, hquoted]⟩

/-- A text without spaces, quotes and backslashes is spelled as it is. -/
theorem exists_spelling_of_ordinary {cs : List Char} (hne : cs ≠ [])
    (hordinary : ∀ c ∈ cs, c ≠ ' ' ∧ c ≠ '\'' ∧ c ≠ '"') (hescape : '\\' ∉ cs) :
    ∃ s : Spelling, s.text = cs ∧ s.word = bare (String.ofList cs) := by
  obtain ⟨pieces, rfl, hquoted⟩ := exists_pieces hordinary hescape
  exact ⟨⟨pieces, fun hnil => hne (by simp [hnil])⟩, rfl,
    by simp [Spelling.word, bare, hquoted, value_of_unquoted hquoted]⟩

theorem tokenize_eq_words {line : Line} {text : String} (h : line.text = text.toList) :
    tokenize text = line.words := by
  rw [tokenize, ← h, scan_text]

theorem tokenize_of_isLiteral {text : String} (h : IsLiteral text.toList) :
    tokenize text = [bare text] := by
  obtain ⟨hne, hordinary, hbackslash⟩ := h
  by_cases hescape : '\\' ∈ text.toList
  · -- the backslash is the last character, and is left open
    obtain ⟨body, last, htext⟩ := (List.eq_nil_or_concat' text.toList).resolve_left hne
    rw [htext] at hordinary
    rw [htext, List.dropLast_concat] at hbackslash
    obtain rfl : last = '\\' := by
      rw [htext, List.mem_append, List.mem_singleton] at hescape
      exact (hescape.resolve_left hbackslash).symm
    obtain ⟨pieces, rfl, hquoted⟩ :=
      exists_pieces (fun c hc => hordinary c (List.mem_append_left _ hc)) hbackslash
    have hline : (Line.cut 0 ⟨pieces, .backslash⟩).text = text.toList := by
      simp [Line.text, Line.gap, OpenSpelling.text, Ending.text, htext]
    rw [tokenize_eq_words hline]
    simp [Line.words, OpenSpelling.word, bare, Ending.value, Ending.isQuoted, hquoted,
      value_of_unquoted hquoted, ← htext]
  · obtain ⟨s, hs, hword⟩ := exists_spelling_of_ordinary hne hordinary hescape
    have hline : (Line.last 0 s).text = text.toList := by simp [Line.text, Line.gap, hs]
    rw [tokenize_eq_words hline, Line.words, hword, String.ofList_toList]

/-- A word that is as long as the line is the whole line, and the line is literal. -/
theorem isLiteral_of_mem_tokenize {text : String} {w : Word} (hw : w ∈ tokenize text)
    (hlength : text.toList.length ≤ w.text.toList.length) : IsLiteral text.toList ∧
      w = bare text := by
  obtain ⟨line, hline⟩ := exists_line text.toList
  rw [tokenize_eq_words hline] at hw
  have hquoted : w.quoted = false := by
    obtain ⟨stretch, hin, hyields⟩ := exists_yields hw
    have hshort := hin.length_le
    have hshorter := hyields.length_le
    rw [hline] at hshort
    cases hquoted : w.quoted with
    | false => rfl
    | true =>
      rw [hquoted, Bool.toNat_true] at hshorter
      omega
  obtain ⟨-, hin⟩ := infix_of_unquoted hw hquoted
  rw [hline] at hin
  have htext : w.text.toList = text.toList := hin.eq_of_length_le hlength
  exact ⟨htext ▸ (isLiteral_of_unquoted hw hquoted).1, by
    rw [bare, ← String.toList_inj.mp htext, ← hquoted]⟩

/-- A text before a space is read as itself only if it holds no backslash either. -/
theorem isLiteral_of_mem_tokenize_space {name : String} {w : Word} (hw : w ∈ tokenize (name ++ " "))
    (hname : w.text = name) : IsLiteral name.toList ∧ '\\' ∉ name.toList := by
  obtain ⟨line, hline⟩ := exists_line (name ++ " ").toList
  rw [tokenize_eq_words hline] at hw
  subst hname
  rw [String.toList_append, show " ".toList = [' '] from rfl] at hline
  have hquoted : w.quoted = false := by
    cases hquoted : w.quoted with
    | false => rfl
    | true =>
      obtain ⟨stretch, hin, hspace, hlength⟩ := exists_yields hw
      rw [hquoted, Bool.toNat_true] at hlength
      -- the stretch would be the whole line, which has one space more than the word
      have hwhole : stretch = line.text := hin.eq_of_length_le (by simpa [hline] using hlength)
      simp [hwhole, hline] at hspace
  obtain ⟨hliteral, hbackslash⟩ := isLiteral_of_unquoted hw hquoted
  refine ⟨hliteral, fun hescape => ?_⟩
  -- the word would end with the line, and so in a space
  have hsuffix := hbackslash hescape
  rw [hline, List.suffix_concat_iff] at hsuffix
  obtain hnil | ⟨body, hbody, -⟩ := hsuffix
  · exact hliteral.ne_nil hnil
  · exact (hliteral.ordinary ' ' (by simp [hbody])).1 rfl

/-! ## A text behind blanks -/

/-- A space outside quotes divides a line into parts that are read apart. -/
theorem scan_append_space (draft : Option Draft) {cs : List Char}
    (hcs : ∀ c ∈ cs, c ≠ '\'' ∧ c ≠ '"' ∧ c ≠ '\\') (rest : List Char) :
    scan .plain draft (cs ++ ' ' :: rest) = scan .plain draft cs ++ scan .plain none rest := by
  induction cs generalizing draft with
  | nil => rw [List.nil_append, scan_plain_space, scan_end]
  | cons c cs ih =>
    have hrest (d : Char) (hd : d ∈ cs) := hcs d (List.mem_cons_of_mem c hd)
    by_cases hspace : c = ' '
    · rw [hspace, List.cons_append, scan_plain_space, scan_plain_space, ih none hrest,
        List.append_assoc]
    · obtain ⟨hsingle, hdouble, hescape⟩ := hcs c (List.mem_cons_self ..)
      rw [List.cons_append, scan_plain_of_ne _ _ hspace hsingle hdouble hescape,
        scan_plain_of_ne _ _ hspace hsingle hdouble hescape, ih _ hrest]

/-- What stands before the last space of a line is read apart from what follows. -/
theorem scan_lead {lead : List Char} (hcs : ∀ c ∈ lead, c ≠ '\'' ∧ c ≠ '"' ∧ c ≠ '\\')
    (hlead : lead = [] ∨ ∃ head, lead = head ++ [' ']) (rest : List Char) :
    scan .plain none (lead ++ rest) = scan .plain none lead ++ scan .plain none rest := by
  obtain rfl | ⟨head, rfl⟩ := hlead
  · rfl
  · have hhead (c : Char) (hc : c ∈ head) := hcs c (List.mem_append_left _ hc)
    have hread := scan_append_space none hhead []
    rw [List.append_assoc, List.singleton_append, scan_append_space none hhead, hread, scan_end]
    simp

/-- A text behind blanks and before a space is one word and itself just if the blanks are spaces and
the text is literal without a backslash. -/
theorem tokenize_typed_iff {lead : List Char} {name : String}
    (hblank : ∀ c ∈ lead, Text.isBlank c = true)
    (hlead : lead = [] ∨ ∃ head, lead = head ++ [' ']) :
    (∃ w, tokenize (String.ofList (lead ++ (name ++ " ").toList)) = [w] ∧ w.text = name) ↔
      (∀ c ∈ lead, c = ' ') ∧ IsLiteral name.toList ∧ '\\' ∉ name.toList := by
  have hcs (c : Char) (hc : c ∈ lead) : c ≠ '\'' ∧ c ≠ '"' ∧ c ≠ '\\' := by
    refine ⟨?_, ?_, ?_⟩ <;> rintro rfl <;> cases hblank _ hc
  have hread : tokenize (String.ofList (lead ++ (name ++ " ").toList)) =
      scan .plain none lead ++ tokenize (name ++ " ") := by
    rw [tokenize, String.toList_ofList, scan_lead hcs hlead, tokenize]
  rw [hread]
  constructor
  · rintro ⟨w, hw, rfl⟩
    rcases hfirst : scan .plain none lead with _ | ⟨w', rest⟩
    · rw [hfirst, List.nil_append] at hw
      exact ⟨eq_space_of_scan_eq_nil hfirst,
        isLiteral_of_mem_tokenize_space (hw ▸ List.mem_singleton_self w) rfl⟩
    · -- the word would stand before the text, which would hold nothing but spaces
      exfalso
      rw [hfirst, List.cons_append] at hw
      obtain ⟨rfl, hnone⟩ := List.cons_eq_cons.mp hw
      obtain ⟨line, hline⟩ := exists_line lead
      have hmem : w' ∈ line.words := by
        rw [← scan_text, hline, hfirst]
        exact List.mem_cons_self ..
      have hliteral := (isLiteral_of_unquoted hmem (unquoted_of_ordinary hmem (hline ▸ hcs))).1
      have hspaces := eq_space_of_scan_eq_nil (List.append_eq_nil_iff.mp hnone).2
      obtain ⟨c, hc⟩ := List.exists_mem_of_ne_nil _ hliteral.ne_nil
      exact (hliteral.ordinary c hc).1 (hspaces c (by simp [hc]))
  · rintro ⟨hspaces, ⟨hne, hordinary, -⟩, hescape⟩
    obtain ⟨s, hs, hword⟩ := exists_spelling_of_ordinary hne hordinary hescape
    have hgap : scan .plain none lead = [] := by
      obtain ⟨n, rfl⟩ : ∃ n, lead = Line.gap n := ⟨_, List.eq_replicate_of_mem hspaces⟩
      simpa [scan_end] using scan_gap n []
    have hline : (Line.next 0 s (.blank 0)).text = (name ++ " ").toList := by
      simp [Line.text, Line.gap, hs]
    exact ⟨bare name, by rw [hgap, tokenize_eq_words hline]; simp [Line.words, hword], rfl⟩

/-! ## Division at pipes -/

theorem length_consFirst (c : Char) {pieces : List (List Char)} (h : pieces ≠ []) :
    (consFirst c pieces).length = pieces.length := by
  obtain ⟨first, others, rfl⟩ := List.exists_cons_of_ne_nil h
  rfl

/-- A literal text is divided at each of its pipes. -/
theorem length_cut_of_literal {cs : List Char} (hordinary : ∀ c ∈ cs, c ≠ ' ' ∧ c ≠ '\'' ∧ c ≠ '"')
    (hbackslash : '\\' ∉ cs.dropLast) : (cut .plain cs).length = cs.count '|' + 1 := by
  induction cs with
  | nil => rfl
  | cons c cs ih =>
    obtain ⟨-, hsingle, hdouble⟩ := hordinary c (List.mem_cons_self ..)
    by_cases hnil : cs = []
    · subst hnil
      by_cases hescape : c = '\\'
      · subst hescape
        rfl
      · by_cases hpipe : c = '|'
        · subst hpipe
          rfl
        · rw [cut_plain_of_ne _ hescape hsingle hdouble hpipe, length_consFirst c (cut_ne_nil _ _)]
          simp [cut, hpipe]
    · rw [List.dropLast_cons_of_ne_nil hnil, List.mem_cons, not_or] at hbackslash
      have hrest := ih (fun d hd => hordinary d (List.mem_cons_of_mem c hd)) hbackslash.2
      by_cases hpipe : c = '|'
      · rw [hpipe, cut_plain_pipe, List.length_cons, hrest, List.count_cons_self]
      · rw [cut_plain_of_ne _ (Ne.symm hbackslash.1) hsingle hdouble hpipe,
          length_consFirst c (cut_ne_nil _ _), hrest, List.count_cons_of_ne hpipe]

end CommandShell.Word
