import CommandShell.Word.Lexer

/-!
# How lines are spelled

A line is spelled as words with runs of plain spaces around them, a word as pieces: characters,
escaped characters, and runs between quotes. Only at the end of a line may a piece be left open. A
spelling has a text and the words that it stands for, and reading the text gives back just these
words.

The types hold nothing but well-formed spellings: what may not stand in a piece is no part of it.

## Main definitions

* `Word.Piece`, `Word.Ending`: the pieces of a word, and those that only the end of the line ends.
* `Word.Line`: a line as words and spaces, with `Line.text` and `Line.words`.

## Main statements

* `Word.scan_text`: a spelling is read as the words that it stands for.
* `Word.exists_line`: every text is spelled in some way.
* `Word.tokenize_spelled`: both, and what an unquoted word says about the line.
-/

namespace CommandShell

namespace Word

/-- The characters that lose their meaning between double quotes behind a backslash. -/
def escapables : List Char := ['"', '\\', '$', '\n']

theorem isEscapable_iff {c : Char} : isEscapable c = true ↔ c ∈ escapables := by
  simp [isEscapable, escapables, or_assoc]

/-- What stands between double quotes. -/
inductive Item where
  | char (c : Char) (ordinary : c ≠ '"' ∧ c ≠ '\\')
  /-- A backslash and a character that it takes as it is. -/
  | escape (c : Char) (escapable : c ∈ escapables)
  /-- A backslash and any other character, which stand for both. -/
  | keep (c : Char) (kept : c ∉ escapables)

namespace Item

def text : Item → List Char
  | char c _ => [c]
  | escape c _ | keep c _ => ['\\', c]

/-- The characters that an item stands for. -/
def value : Item → List Char
  | char c _ | escape c _ => [c]
  | keep c _ => ['\\', c]

end Item

/-- A piece of a word. -/
inductive Piece where
  | char (c : Char) (ordinary : c ≠ ' ' ∧ c ≠ '\'' ∧ c ≠ '"' ∧ c ≠ '\\')
  | escape (c : Char)
  /-- A run between single quotes. -/
  | single (run : List Char) (closed : '\'' ∉ run)
  /-- A run between double quotes. -/
  | double (items : List Item)

namespace Piece

def text : Piece → List Char
  | char c _ => [c]
  | escape c => ['\\', c]
  | single run _ => '\'' :: (run ++ ['\''])
  | double items => '"' :: (items.flatMap Item.text ++ ['"'])

/-- The characters that a piece stands for. -/
def value : Piece → List Char
  | char c _ | escape c => [c]
  | single run _ => run
  | double items => items.flatMap Item.value

/-- Whether a piece is quoted or escaped. -/
def isQuoted : Piece → Bool
  | char _ _ => false
  | escape _ | single _ _ | double _ => true

end Piece

/-- A last piece that the end of the line ends: a run whose quote is not closed, or a backslash with
no character behind it. -/
inductive Ending where
  | single (run : List Char) (unclosed : '\'' ∉ run)
  /-- A run that is open to the right, and whether a lone backslash ends it. -/
  | double (items : List Item) (backslash : Bool)
  | backslash

namespace Ending

/-- The backslash at the end of an open run. -/
def lone : Bool → List Char
  | true => ['\\']
  | false => []

def text : Ending → List Char
  | single run _ => '\'' :: run
  | double items b => '"' :: (items.flatMap Item.text ++ lone b)
  | backslash => ['\\']

/-- The characters that a last piece stands for. -/
def value : Ending → List Char
  | single run _ => run
  | double items b => items.flatMap Item.value ++ lone b
  | backslash => ['\\']

/-- Whether a last piece is quoted. A lone backslash escapes nothing. -/
def isQuoted : Ending → Bool
  | single _ _ | double _ _ => true
  | backslash => false

end Ending

/-- A word of a line: its pieces, of which there is at least one. -/
structure Spelling where
  pieces : List Piece
  ne_nil : pieces ≠ []

namespace Spelling

def text (s : Spelling) : List Char := s.pieces.flatMap Piece.text

/-- The word that a spelling stands for. It is quoted if some piece of it is. -/
def word (s : Spelling) : Word :=
  ⟨String.ofList (s.pieces.flatMap Piece.value), s.pieces.any Piece.isQuoted⟩

end Spelling

/-- The last word of a line whose last piece is left open. -/
structure OpenSpelling where
  pieces : List Piece
  ending : Ending

namespace OpenSpelling

def text (s : OpenSpelling) : List Char := s.pieces.flatMap Piece.text ++ s.ending.text

def word (s : OpenSpelling) : Word :=
  ⟨String.ofList (s.pieces.flatMap Piece.value ++ s.ending.value),
    s.pieces.any Piece.isQuoted || s.ending.isQuoted⟩

end OpenSpelling

/-- How a line is spelled. Spaces may stand before and behind all words, and at least one stands
between two of them. -/
inductive Line where
  /-- Spaces up to the end of the line. -/
  | blank (spaces : Nat)
  /-- Spaces and a word that ends the line. -/
  | last (spaces : Nat) (s : Spelling)
  /-- Spaces and a word that the end of the line cuts off. -/
  | cut (spaces : Nat) (s : OpenSpelling)
  /-- Spaces, a word with a space behind it, and what follows. -/
  | next (spaces : Nat) (s : Spelling) (rest : Line)

namespace Line

/-- So many plain spaces. -/
def gap (n : Nat) : List Char := List.replicate n ' '

def text : Line → List Char
  | blank n => gap n
  | last n s => gap n ++ s.text
  | cut n s => gap n ++ s.text
  | next n s rest => gap n ++ (s.text ++ ' ' :: rest.text)

/-- The words that a line stands for. -/
def words : Line → List Word
  | blank _ => []
  | last _ s => [s.word]
  | cut _ s => [s.word]
  | next _ s rest => s.word :: rest.words

end Line

/-! ## Reading a spelling -/

namespace Draft

/-- A draft with more characters, some of which may be quoted. -/
def add (d : Draft) (value : List Char) (quoted : Bool) : Draft :=
  ⟨value.reverse ++ d.chars, d.quoted || quoted⟩

@[simp] theorem add_nil (d : Draft) : d.add [] false = d := by
  simp [add]

@[simp] theorem add_add (d : Draft) (v v' : List Char) (q q' : Bool) :
    (d.add v q).add v' q' = d.add (v ++ v') (q || q') := by
  simp [add, Bool.or_assoc]

theorem push_eq_add (d : Draft) (c : Char) : d.push c = d.add [c] false := by
  simp [push, add]

theorem quote_eq_add (d : Draft) : d.quote = d.add [] true := by
  simp [quote, add]

@[simp] theorem toWord_add (v : List Char) (q : Bool) :
    (add {} v q).toWord = ⟨String.ofList v, q⟩ := by
  simp [toWord, add]

end Draft

section Pieces

variable (d : Draft) (draft : Option Draft) (rest : List Char)

theorem scan_single_run {run : List Char} (hrun : '\'' ∉ run) :
    scan .single (some d) (run ++ rest) = scan .single (some (d.add run false)) rest := by
  induction run generalizing d with
  | nil => simp
  | cons c run ih =>
    simp only [List.mem_cons, not_or] at hrun
    obtain ⟨hc, hrun⟩ := hrun
    rw [List.cons_append, scan_single_of_ne _ _ (Ne.symm hc), ih _ hrun]
    simp [Draft.push_eq_add]

theorem scan_item (item : Item) :
    scan .double (some d) (item.text ++ rest) =
      scan .double (some (d.add item.value false)) rest := by
  cases item with
  | char c ordinary =>
    simp [Item.text, Item.value, scan_double_of_ne _ _ ordinary.1 ordinary.2, Draft.push_eq_add]
  | escape c escapable =>
    simp [Item.text, Item.value, scan_double_escape _ _ (isEscapable_iff.mpr escapable),
      Draft.push_eq_add]
  | keep c kept =>
    have hplain : c ≠ '"' ∧ c ≠ '\\' := by
      simp only [escapables, List.mem_cons, not_or] at kept
      exact ⟨kept.1, kept.2.1⟩
    have hkept : isEscapable c = false := by
      rwa [← Bool.not_eq_true, isEscapable_iff]
    simp [Item.text, Item.value, scan_double_keep _ _ hkept,
      scan_double_of_ne _ _ hplain.1 hplain.2, Draft.push_eq_add]

theorem scan_items (items : List Item) :
    scan .double (some d) (items.flatMap Item.text ++ rest) =
      scan .double (some (d.add (items.flatMap Item.value) false)) rest := by
  induction items generalizing d with
  | nil => simp
  | cons item items ih => simp [scan_item, ih]

/-- A piece is added to the word that has been begun, or begins one. -/
theorem scan_piece (p : Piece) :
    scan .plain draft (p.text ++ rest) =
      scan .plain (some ((draft.getD {}).add p.value p.isQuoted)) rest := by
  cases p with
  | char c ordinary =>
    obtain ⟨hspace, hsingle, hdouble, hescape⟩ := ordinary
    simp [Piece.text, Piece.value, Piece.isQuoted,
      scan_plain_of_ne _ _ hspace hsingle hdouble hescape, Draft.push_eq_add]
  | escape c =>
    simp [Piece.text, Piece.value, Piece.isQuoted, Draft.push_eq_add, Draft.quote_eq_add]
  | single run closed =>
    simp [Piece.text, Piece.value, Piece.isQuoted, scan_single_run _ _ closed, Draft.quote_eq_add]
  | double items => simp [Piece.text, Piece.value, Piece.isQuoted, scan_items, Draft.quote_eq_add]

theorem scan_pieces {pieces : List Piece} (hne : pieces ≠ []) :
    scan .plain draft (pieces.flatMap Piece.text ++ rest) =
      scan .plain (some ((draft.getD {}).add (pieces.flatMap Piece.value)
        (pieces.any Piece.isQuoted))) rest := by
  induction pieces generalizing draft with
  | nil => exact absurd rfl hne
  | cons p pieces ih =>
    rw [List.flatMap_cons, List.append_assoc, scan_piece]
    by_cases hrest : pieces = []
    · simp [hrest]
    · simp [ih _ hrest]

/-- A last piece ends the word with the line. -/
theorem scan_ending (e : Ending) :
    scan .plain draft e.text = [((draft.getD {}).add e.value e.isQuoted).toWord] := by
  cases e with
  | single run unclosed =>
    have hread := scan_single_run (draft.getD {}).quote [] unclosed
    rw [List.append_nil, Draft.quote_eq_add] at hread
    simp [Ending.text, Ending.value, Ending.isQuoted, Draft.quote_eq_add, hread, scan_end]
  | double items b =>
    have hlone : scan .double
        (some (((draft.getD {}).add [] true).add (items.flatMap Item.value) false))
        (Ending.lone b) =
          [((draft.getD {}).add (items.flatMap Item.value ++ Ending.lone b) true).toWord] := by
      cases b <;> simp [Ending.lone, scan_end, scan_double_lone, Draft.push_eq_add]
    rw [← scan_items] at hlone
    simpa [Ending.text, Ending.value, Ending.isQuoted, Draft.quote_eq_add] using hlone
  | backslash =>
    simp [Ending.text, Ending.value, Ending.isQuoted, scan_plain_lone, Draft.push_eq_add]

end Pieces

@[simp] theorem scan_gap (n : Nat) (rest : List Char) :
    scan .plain none (Line.gap n ++ rest) = scan .plain none rest := by
  induction n with
  | zero => rfl
  | succ n ih => simpa [Line.gap, List.replicate_succ] using ih

theorem scan_spelling (s : Spelling) (rest : List Char) :
    scan .plain none (s.text ++ rest) =
      scan .plain (some (Draft.add {} (s.pieces.flatMap Piece.value) (s.pieces.any Piece.isQuoted)))
        rest :=
  scan_pieces none rest s.ne_nil

theorem scan_openSpelling (s : OpenSpelling) : scan .plain none s.text = [s.word] := by
  unfold OpenSpelling.text OpenSpelling.word
  by_cases hnone : s.pieces = []
  · simp [hnone, scan_ending]
  · simp [scan_pieces none _ hnone, scan_ending]

/-- A spelling is read as the words that it stands for. -/
theorem scan_text (line : Line) : scan .plain none line.text = line.words := by
  induction line with
  | blank n => simpa [Line.text, Line.words, scan_end] using scan_gap n []
  | last n s =>
    have hread := scan_spelling s []
    rw [List.append_nil] at hread
    simp [Line.text, Line.words, hread, scan_end, Spelling.word]
  | cut n s => simp [Line.text, Line.words, scan_openSpelling]
  | next n s rest ih => simp [Line.text, Line.words, scan_spelling, ih, Spelling.word]

/-! ## Spelling a text -/

namespace Line

/-- A line with one more space in front. -/
def space : Line → Line
  | blank n => blank (n + 1)
  | last n s => last (n + 1) s
  | cut n s => cut (n + 1) s
  | next n s rest => next (n + 1) s rest

@[simp] theorem text_space (line : Line) : line.space.text = ' ' :: line.text := by
  cases line <;> simp [space, text, gap, List.replicate_succ]

/-- A line with one more piece in front: it belongs to the first word if that begins the line, and
else it is a word of its own. -/
def cons (p : Piece) : Line → Line
  | blank 0 => last 0 ⟨[p], List.cons_ne_nil p []⟩
  | blank (n + 1) => next 0 ⟨[p], List.cons_ne_nil p []⟩ (blank n)
  | last 0 s => last 0 ⟨p :: s.pieces, List.cons_ne_nil p s.pieces⟩
  | last (n + 1) s => next 0 ⟨[p], List.cons_ne_nil p []⟩ (last n s)
  | cut 0 s => cut 0 ⟨p :: s.pieces, s.ending⟩
  | cut (n + 1) s => next 0 ⟨[p], List.cons_ne_nil p []⟩ (cut n s)
  | next 0 s rest => next 0 ⟨p :: s.pieces, List.cons_ne_nil p s.pieces⟩ rest
  | next (n + 1) s rest => next 0 ⟨[p], List.cons_ne_nil p []⟩ (next n s rest)

@[simp] theorem text_cons (p : Piece) (line : Line) : (line.cons p).text = p.text ++ line.text := by
  cases line with
  | blank n => cases n <;> simp [cons, text, gap, List.replicate_succ, Spelling.text]
  | last n s => cases n <;> simp [cons, text, gap, List.replicate_succ, Spelling.text]
  | cut n s =>
    cases n <;> simp [cons, text, gap, List.replicate_succ, Spelling.text, OpenSpelling.text]
  | next n s rest => cases n <;> simp [cons, text, gap, List.replicate_succ, Spelling.text]

end Line

/-- What stands behind a double quote: a run that another one closes and what follows, or a run that
is open up to the end. -/
def AfterQuote (cs : List Char) : Prop :=
  (∃ (items : List Item) (rest : List Char), cs = items.flatMap Item.text ++ '"' :: rest) ∨
    ∃ (items : List Item) (b : Bool), cs = items.flatMap Item.text ++ Ending.lone b

theorem AfterQuote.cons (item : Item) {cs : List Char} (h : AfterQuote cs) :
    AfterQuote (item.text ++ cs) := by
  obtain ⟨items, rest, rfl⟩ | ⟨items, b, rfl⟩ := h
  · exact .inl ⟨item :: items, rest, by simp⟩
  · exact .inr ⟨item :: items, b, by simp⟩

theorem afterQuote : (cs : List Char) → AfterQuote cs
  | [] => .inr ⟨[], false, rfl⟩
  | c :: rest => by
    by_cases hquote : c = '"'
    · exact .inl ⟨[], rest, by simp [hquote]⟩
    by_cases hescape : c = '\\'
    · subst hescape
      match rest with
      | [] => exact .inr ⟨[], true, rfl⟩
      | e :: rest =>
        by_cases he : e ∈ escapables
        · exact (afterQuote rest).cons (.escape e he)
        · exact (afterQuote rest).cons (.keep e he)
    · exact (afterQuote rest).cons (.char c ⟨hquote, hescape⟩)

/-- Every text is spelled in some way. -/
theorem exists_line (cs : List Char) : ∃ line : Line, line.text = cs := by
  induction hn : cs.length using Nat.strongRecOn generalizing cs with
  | ind n ih =>
    subst hn
    have hcons (p : Piece) (rest : List Char) (h : rest.length < cs.length)
        (heq : cs = p.text ++ rest) :
        ∃ line : Line, line.text = cs := by
      obtain ⟨line, hline⟩ := ih rest.length h rest rfl
      exact ⟨line.cons p, by rw [Line.text_cons, hline, heq]⟩
    have hending (e : Ending) (heq : cs = e.text) : ∃ line : Line, line.text = cs :=
      ⟨.cut 0 ⟨[], e⟩, by simp [Line.text, Line.gap, OpenSpelling.text, heq]⟩
    rcases cs with _ | ⟨c, rest⟩
    · exact ⟨.blank 0, rfl⟩
    by_cases hspace : c = ' '
    · obtain ⟨line, hline⟩ := ih rest.length (by simp) rest rfl
      exact ⟨line.space, by rw [Line.text_space, hline, hspace]⟩
    by_cases hsingle : c = '\''
    · by_cases hclosed : '\'' ∈ rest
      · obtain ⟨run, rest', rfl, hrun⟩ := List.eq_append_cons_of_mem hclosed
        exact hcons (.single run hrun) rest' (by grind) (by simp [Piece.text, hsingle])
      · exact hending (.single rest hclosed) (by simp [Ending.text, hsingle])
    by_cases hdouble : c = '"'
    · obtain ⟨items, rest', rfl⟩ | ⟨items, b, rfl⟩ := afterQuote rest
      · exact hcons (.double items) rest' (by grind) (by simp [Piece.text, hdouble])
      · exact hending (.double items b) (by simp [Ending.text, hdouble])
    by_cases hescape : c = '\\'
    · rcases rest with _ | ⟨e, rest⟩
      · exact hending .backslash (by simp [Ending.text, hescape])
      · exact hcons (.escape e) rest (by grind) (by simp [Piece.text, hescape])
    · exact hcons (.char c ⟨hspace, hsingle, hdouble, hescape⟩) rest (by simp) rfl

/-! ## Unquoted words -/

/-- Pieces of which none is quoted stand for their text. -/
theorem value_of_unquoted {pieces : List Piece} (h : pieces.any Piece.isQuoted = false) :
    pieces.flatMap Piece.value = pieces.flatMap Piece.text := by
  induction pieces with
  | nil => rfl
  | cons p pieces ih =>
    simp only [List.any_cons, Bool.or_eq_false_iff] at h
    cases p with
    | char c ordinary => simp [ih h.2, Piece.value, Piece.text]
    | _ => simp [Piece.isQuoted] at h

theorem Piece.text_ne_nil (p : Piece) : p.text ≠ [] := by
  cases p <;> simp [text]

theorem Spelling.text_ne_nil (s : Spelling) : s.text ≠ [] := by
  obtain ⟨p, rest, hpieces⟩ := List.exists_cons_of_ne_nil s.ne_nil
  simp [text, hpieces, p.text_ne_nil]

theorem Spelling.word_of_unquoted {s : Spelling} (h : s.word.quoted = false) :
    s.word.text.toList = s.text := by
  simpa [word, text] using value_of_unquoted h

theorem OpenSpelling.word_of_unquoted {s : OpenSpelling} (h : s.word.quoted = false) :
    s.word.text.toList = s.text := by
  obtain ⟨hpieces, hending⟩ := Bool.or_eq_false_iff.mp h
  cases he : s.ending with
  | backslash => simp [word, text, he, value_of_unquoted hpieces, Ending.value, Ending.text]
  | _ => simp [he, Ending.isQuoted] at hending

theorem OpenSpelling.text_ne_nil (s : OpenSpelling) : s.text ≠ [] := by
  cases he : s.ending <;> simp [text, he, Ending.text]

/-- A word of a line has a spelling in it, which may be open at the end of the line. -/
theorem exists_spelling {line : Line} {w : Word} (hw : w ∈ line.words) :
    (∃ s : Spelling, s.word = w ∧ s.text <:+: line.text) ∨ ∃ s : OpenSpelling, s.word = w ∧
      s.text <:+ line.text := by
  induction line with
  | blank n => cases hw
  | last n s =>
    obtain rfl := List.mem_singleton.mp hw
    exact .inl ⟨s, rfl, (List.suffix_append (Line.gap n) s.text).isInfix⟩
  | cut n s =>
    obtain rfl := List.mem_singleton.mp hw
    exact .inr ⟨s, rfl, List.suffix_append (Line.gap n) s.text⟩
  | next n s rest ih =>
    have hlater : rest.text <:+ (Line.next n s rest).text :=
      ⟨Line.gap n ++ (s.text ++ [' ']), by simp [Line.text]⟩
    rcases List.mem_cons.mp hw with rfl | hrest
    · exact .inl ⟨s, rfl, List.infix_append' (Line.gap n) s.text (' ' :: rest.text)⟩
    · obtain ⟨s', hs', hin⟩ | ⟨s', hs', hin⟩ := ih hrest
      · exact .inl ⟨s', hs', hin.trans hlater.isInfix⟩
      · exact .inr ⟨s', hs', hin.trans hlater⟩

/-- A word that nothing of is quoted is not empty, and stands in the line as it is. -/
theorem infix_of_unquoted {line : Line} {w : Word} (hw : w ∈ line.words)
    (hquoted : w.quoted = false) : w.text.toList ≠ [] ∧ w.text.toList <:+: line.text := by
  obtain ⟨s, rfl, hin⟩ | ⟨s, rfl, hin⟩ := exists_spelling hw
  · rw [Spelling.word_of_unquoted hquoted]
    exact ⟨s.text_ne_nil, hin⟩
  · rw [OpenSpelling.word_of_unquoted hquoted]
    exact ⟨s.text_ne_nil, hin.isInfix⟩

/-- The words of a line are those that every spelling of it stands for, and there is one. A word of
which nothing is quoted is not empty and stands in the line as it is. -/
theorem tokenize_spelled (line : String) :
    (∃ spelled : Line, spelled.text = line.toList) ∧
      (∀ spelled : Line, spelled.text = line.toList → tokenize line = spelled.words) ∧
      ∀ w ∈ tokenize line, w.quoted = false → w.text ≠ "" ∧ w.text.toList <:+: line.toList := by
  have hread (spelled : Line) (h : spelled.text = line.toList) : tokenize line = spelled.words := by
    rw [tokenize, ← h, scan_text]
  obtain ⟨spelled, hspelled⟩ := exists_line line.toList
  refine ⟨⟨spelled, hspelled⟩, hread, fun w hw hquoted => ?_⟩
  rw [hread spelled hspelled] at hw
  obtain ⟨hne, hin⟩ := infix_of_unquoted hw hquoted
  refine ⟨?_, hspelled ▸ hin⟩
  intro hempty
  simp [hempty] at hne

/-- A line with every kind of piece: its first word has three of them, its second is an escaped
space, and its last is open and ends in a lone backslash. -/
theorem tokenize_every_piece :
    tokenize " a'b c'\"d\\$\\x\" \\  \"e\\" = [⟨"ab cd$\\x", true⟩, ⟨" ", true⟩, ⟨"e\\", true⟩] :=
  (tokenize_spelled _).2.1
    (.next 1 ⟨[.char 'a' (by decide), .single ['b', ' ', 'c'] (by decide),
        .double [.char 'd' (by decide), .escape '$' (by decide), .keep 'x' (by decide)]], by simp⟩
      (.next 0 ⟨[.escape ' '], by simp⟩ (.cut 0 ⟨[], .double [.char 'e' (by decide)] true⟩)))
    (by decide)

end Word

end CommandShell
