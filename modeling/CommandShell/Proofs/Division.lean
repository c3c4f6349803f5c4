import CommandShell.Word.Segment
import Mathlib.Data.Set.Card
import Mathlib.Logic.Relation

/-!
# Where a line is divided

The words of a line are read by one scanner, its segments are cut by another one. Between double
quotes the two have different rules: one takes any character behind a backslash as it is, the other
only a few. They agree nevertheless on where quotes end, and so the line is divided at exactly the
pipes that the reader of words comes to outside quotes.

`Reader` is the state of the reader of words in the middle of a line, and `Reader.turn` is one turn
of it: a turn takes one character, or a backslash with the character behind it.

## Main statements

* `Word.Reader.words_eq_turn`: reading words is one turn after the other.
* `Word.divides_cut`: the segments meet at the pipes that the reader comes to outside quotes.
* `Word.reaches_end_of_cut`: a segment before such a pipe leaves no quote open.
* `Word.divided_where_read`: the two scanners agree on every line.
-/

namespace CommandShell

namespace Word

/-- The reader of words in the middle of a line: the quoting at its place, the word that has been
begun, and the characters that are left. -/
structure Reader where
  quoting : Quoting
  draft : Option Draft
  rest : List Char

namespace Reader

/-- The reader at the start of a line. -/
def start (line : String) : Reader := ⟨.plain, none, line.toList⟩

/-- The words that are still to be read. -/
def words (r : Reader) : List Word := scan r.quoting r.draft r.rest

/-- The reader after a character that belongs to the word, which is begun if there is none. -/
def push (quoting : Quoting) (draft : Option Draft) (c : Char) (rest : List Char) : Reader :=
  ⟨quoting, some ((draft.getD {}).push c), rest⟩

@[simp] theorem quoting_push (quoting : Quoting) (draft : Option Draft) (c : Char)
    (rest : List Char) : (push quoting draft c rest).quoting = quoting := rfl

@[simp] theorem rest_push (quoting : Quoting) (draft : Option Draft) (c : Char) (rest : List Char) :
    (push quoting draft c rest).rest = rest := rfl

/-- One turn of the reader: the word that it completes, if it does, and where it goes on. -/
def turn : Reader → Option (List Word × Reader)
  | ⟨_, _, []⟩ => none
  | ⟨.single, draft, c :: rest⟩ =>
    some ([], if c = '\'' then ⟨.plain, draft, rest⟩ else push .single draft c rest)
  | ⟨.double, draft, c :: rest⟩ =>
    some ([],
      if c = '"' then ⟨.plain, draft, rest⟩
      else if c = '\\' then
        match rest with
        | [] => push .double draft c []
        | e :: rest' =>
          if isEscapable e then push .double draft e rest' else push .double draft c rest
      else push .double draft c rest)
  | ⟨.plain, draft, c :: rest⟩ =>
    some (
      if c = ' ' then ((draft.map Draft.toWord).toList, ⟨.plain, none, rest⟩)
      else if c = '\'' then ([], ⟨.single, some (draft.getD {}).quote, rest⟩)
      else if c = '"' then ([], ⟨.double, some (draft.getD {}).quote, rest⟩)
      else if c = '\\' then
        match rest with
        | [] => ([], push .plain draft c [])
        | e :: rest' => ([], ⟨.plain, some ((draft.getD {}).push e).quote, rest'⟩)
      else ([], push .plain draft c rest))

/-- Reading words is one turn after the other. -/
theorem words_eq_of_turn {r r' : Reader} {ws : List Word} (h : r.turn = some (ws, r')) :
    r.words = ws ++ r'.words := by
  obtain ⟨q, draft, _ | ⟨c, rest⟩⟩ := r
  · cases h
  · cases q with
    | single =>
      rw [turn] at h
      cases h
      rw [words, scan]
      split <;> rfl
    | double =>
      cases rest with
      | nil =>
        rw [turn] at h
        cases h
        rw [words, scan]
        split
        · rfl
        · split <;> rfl
      | cons e rest =>
        rw [turn] at h
        cases h
        rw [words, scan]
        split
        · rfl
        · split
          · split <;> rfl
          · rfl
    | plain =>
      cases rest <;> rw [turn] at h <;> rw [words, scan] <;> repeat' split at h
      all_goals
        cases h
        simp [words, push, *]

/-- The reader goes on to another state in one turn. -/
def Goes (r r' : Reader) : Prop := ∃ ws, r.turn = some (ws, r')

/-- The reader comes to another state in some turns. -/
abbrev Reaches : Reader → Reader → Prop := Relation.ReflTransGen Goes

/-- What the reader has read on its way are the first of its words. -/
theorem Reaches.words_eq {r r' : Reader} (h : r.Reaches r') : ∃ ws, r.words = ws ++ r'.words := by
  induction h with
  | refl => exact ⟨[], rfl⟩
  | tail _ hgoes ih =>
    obtain ⟨ws, hws⟩ := ih
    obtain ⟨ws', hturn⟩ := hgoes
    exact ⟨ws ++ ws', by rw [hws, words_eq_of_turn hturn, List.append_assoc]⟩

/-- A turn takes something of the line. -/
theorem rest_of_turn {r r' : Reader} {ws : List Word} (h : r.turn = some (ws, r')) :
    r'.rest.length < r.rest.length := by
  obtain ⟨q, draft, _ | ⟨c, rest⟩⟩ := r
  · cases h
  · cases q <;> rcases rest with _ | ⟨e, rest⟩ <;> rw [turn] at h <;> repeat' split at h
    all_goals
      cases h
      simp [push]

theorem Reaches.length_le {r r' : Reader} (h : r.Reaches r') : r'.rest.length ≤ r.rest.length := by
  induction h with
  | refl => exact Nat.le_refl _
  | tail _ hgoes ih =>
    obtain ⟨ws, hturn⟩ := hgoes
    have := rest_of_turn hturn
    omega

/-- The reader goes on as its turn says, unless it stays where it is. -/
theorem Reaches.of_turn {r r₁ r' : Reader} {ws : List Word} (hturn : r.turn = some (ws, r₁))
    (h : r.Reaches r') : r = r' ∨ r₁.Reaches r' := by
  obtain heq | ⟨r₂, ⟨ws₂, hturn₂⟩, hrest⟩ := h.cases_head
  · exact .inl heq
  · obtain rfl : r₁ = r₂ := by
      rw [hturn] at hturn₂
      exact (Prod.mk.inj (Option.some.inj hturn₂)).2
    exact .inr hrest

/-- Without taking anything the reader stays where it is. -/
theorem Reaches.eq_of_length {r r' : Reader} (h : r.Reaches r')
    (hlen : r.rest.length ≤ r'.rest.length) : r = r' := by
  obtain heq | ⟨r₁, ⟨ws, hturn⟩, hrest⟩ := h.cases_head
  · exact heq
  · have := rest_of_turn hturn
    have := Reaches.length_le hrest
    omega

/-- On its way to a later place the reader comes to every state that it reaches in between. -/
theorem Reaches.of_length {r r₁ r' : Reader} (h₁ : r.Reaches r₁) (h : r.Reaches r')
    (hlen : r'.rest.length ≤ r₁.rest.length) : r₁.Reaches r' := by
  induction h₁ using Relation.ReflTransGen.head_induction_on with
  | refl => exact h
  | head hgoes hrest ih =>
    obtain ⟨ws, hturn⟩ := hgoes
    obtain rfl | h := h.of_turn hturn
    · have := rest_of_turn hturn
      have := Reaches.length_le hrest
      omega
    · exact ih h

end Reader

/-! ## Blocks

What both scanners take at a time, or one of them after the other: a character, or a backslash with
the character behind it. -/

/-- Characters that the reader passes over, whatever follows them, without coming to one of them as
a pipe outside quotes. -/
structure Block (q : Quoting) (block : List Char) (q' : Quoting) : Prop where
  passed : ∀ draft rest, ∃ draft', Reader.Reaches ⟨q, draft, block ++ rest⟩ ⟨q', draft', rest⟩
  noPipe : ∀ draft rest i draft', i < block.length →
    Reader.Reaches ⟨q, draft, block ++ rest⟩ ⟨.plain, draft', (block ++ rest).drop i⟩ →
    block[i]? ≠ some '|'

/-- One character that is taken in one turn. -/
theorem Block.char {q q' : Quoting} {c : Char}
    (hturn : ∀ draft rest, ∃ ws draft',
      Reader.turn ⟨q, draft, c :: rest⟩ = some (ws, ⟨q', draft', rest⟩))
    (hc : q = .plain → c ≠ '|') : Block q [c] q' where
  passed draft rest := by
    obtain ⟨ws, draft', h⟩ := hturn draft rest
    exact ⟨draft', .single ⟨ws, h⟩⟩
  noPipe draft rest i draft' hi h := by
    obtain rfl : i = 0 := by simpa using hi
    have heq := h.eq_of_length (by simp)
    obtain rfl : q = .plain := by simpa using congrArg Reader.quoting heq
    simpa using hc rfl

/-- A backslash with the character behind it, which the reader never comes to outside quotes. -/
theorem Block.escape {q : Quoting} {e : Char}
    (hpass : ∀ draft rest, ∃ draft', Reader.Reaches ⟨q, draft, '\\' :: e :: rest⟩ ⟨q, draft', rest⟩)
    (hbehind : ∀ draft rest draft',
      ¬ Reader.Reaches ⟨q, draft, '\\' :: e :: rest⟩ ⟨.plain, draft', e :: rest⟩) :
    Block q ['\\', e] q where
  passed := hpass
  noPipe draft rest i draft' hi h := by
    rcases i with _ | _ | i
    · simp
    · exact absurd h (hbehind draft rest draft')
    · simp at hi

theorem block_single (c : Char) : Block .single [c] (if c = '\'' then .plain else .single) := by
  refine .char (fun draft rest => ?_) nofun
  rw [Reader.turn]
  split <;> exact ⟨_, _, rfl⟩

theorem block_double {c : Char} (hc : c ≠ '\\') :
    Block .double [c] (if c = '"' then .plain else .double) := by
  refine .char (fun draft rest => ?_) nofun
  cases rest <;> rw [Reader.turn, if_neg hc] <;> split <;> exact ⟨_, _, rfl⟩

theorem block_plain_single : Block .plain ['\''] .single := by
  refine .char (fun draft rest => ⟨[], some (draft.getD {}).quote, ?_⟩) (by decide)
  cases rest <;> simp [Reader.turn]

theorem block_plain_double : Block .plain ['"'] .double := by
  refine .char (fun draft rest => ⟨[], some (draft.getD {}).quote, ?_⟩) (by decide)
  cases rest <;> simp [Reader.turn]

theorem block_plain {c : Char} (hescape : c ≠ '\\') (hsingle : c ≠ '\'') (hdouble : c ≠ '"')
    (hpipe : c ≠ '|') : Block .plain [c] .plain := by
  refine .char (fun draft rest => ?_) fun _ => hpipe
  cases rest <;> simp only [Reader.turn, if_neg hescape, if_neg hsingle, if_neg hdouble] <;> split
  all_goals exact ⟨_, _, rfl⟩

theorem block_plain_escape (e : Char) : Block .plain ['\\', e] .plain := by
  have hturn (draft : Option Draft) (rest : List Char) :
      Reader.turn ⟨.plain, draft, '\\' :: e :: rest⟩ =
      some ([], ⟨.plain, some ((draft.getD {}).push e).quote, rest⟩) := by simp [Reader.turn]
  refine .escape (fun draft rest => ⟨_, .single ⟨[], hturn draft rest⟩⟩)
    fun draft rest draft' h => ?_
  obtain heq | h := h.of_turn (hturn draft rest)
  · simpa using congrArg (fun r => r.rest.length) heq
  · simpa using h.length_le

/-- Between double quotes the reader takes a backslash before most characters as it is, and comes to
the character behind it. That is no quote then, so the quoting stays. -/
theorem block_double_escape (e : Char) : Block .double ['\\', e] .double := by
  by_cases he : isEscapable e
  · have hturn (draft : Option Draft) (rest : List Char) :
        Reader.turn ⟨.double, draft, '\\' :: e :: rest⟩ =
          some ([], .push .double draft e rest) := by
      simp [Reader.turn, he]
    refine .escape (fun draft rest => ⟨_, .single ⟨[], hturn draft rest⟩⟩)
      fun draft rest draft' h => ?_
    obtain heq | h := h.of_turn (hturn draft rest)
    · simpa using congrArg (fun r => r.rest.length) heq
    · simpa using h.length_le
  · have hturn (draft : Option Draft) (rest : List Char) :
        Reader.turn ⟨.double, draft, '\\' :: e :: rest⟩ =
          some ([], .push .double draft '\\' (e :: rest)) := by simp [Reader.turn, he]
    have hquote : e ≠ '"' := by rintro rfl; exact he rfl
    have hescape : e ≠ '\\' := by rintro rfl; exact he rfl
    refine .escape (fun draft rest => ?_) fun draft rest draft' h => ?_
    · obtain ⟨draft', hnext⟩ :=
        (block_double hescape).passed (some ((draft.getD {}).push '\\')) rest
      rw [if_neg hquote] at hnext
      exact ⟨draft', .head ⟨[], hturn draft rest⟩ hnext⟩
    · obtain heq | h := h.of_turn (hturn draft rest)
      · simpa using congrArg (fun r => r.rest.length) heq
      · simpa using congrArg Reader.quoting (h.eq_of_length (by simp))

/-- What cutting takes at a time: a character that is no pipe outside quotes, or a backslash with
the character behind it, and the quoting after it. -/
inductive Takes : Quoting → List Char → Quoting → Prop where
  | single (c : Char) : Takes .single [c] (if c = '\'' then .plain else .single)
  | double {c : Char} (hc : c ≠ '\\') : Takes .double [c] (if c = '"' then .plain else .double)
  | doubleEscape (e : Char) : Takes .double ['\\', e] .double
  | escape (e : Char) : Takes .plain ['\\', e] .plain
  | openSingle : Takes .plain ['\''] .single
  | openDouble : Takes .plain ['"'] .double
  | plain {c : Char} (hescape : c ≠ '\\') (hsingle : c ≠ '\'') (hdouble : c ≠ '"')
      (hpipe : c ≠ '|') :
    Takes .plain [c] .plain

theorem Takes.block {q q' : Quoting} {block : List Char} (h : Takes q block q') :
    Block q block q' := by
  cases h with
  | single c => exact block_single c
  | double hc => exact block_double hc
  | doubleEscape e => exact block_double_escape e
  | escape e => exact block_plain_escape e
  | openSingle => exact block_plain_single
  | openDouble => exact block_plain_double
  | plain hescape hsingle hdouble hpipe => exact block_plain hescape hsingle hdouble hpipe

/-! ## Agreement -/

/-- The places at which pieces of some lengths meet, with one character between any two of them. -/
def borders : List Nat → List Nat
  | [] | [_] => []
  | n :: m :: rest => n :: (borders (m :: rest)).map (n + 1 + ·)

/-- The pieces meet at the pipes that the reader comes to outside quotes. -/
def Divides (q : Quoting) (draft : Option Draft) (cs : List Char)
    (pieces : List (List Char)) : Prop :=
  ∀ i, i ∈ borders (pieces.map List.length) ↔
    cs[i]? = some '|' ∧ ∃ draft', Reader.Reaches ⟨q, draft, cs⟩ ⟨.plain, draft', cs.drop i⟩

theorem cut_ne_nil (q : Quoting) (cs : List Char) : cut q cs ≠ [] := by
  have hcons (c : Char) (pieces : List (List Char)) : consFirst c pieces ≠ [] := by
    cases pieces <;> simp [consFirst]
  fun_cases cut q cs <;> simp [hcons]

theorem borders_cons (n : Nat) {lengths : List Nat} (h : lengths ≠ []) :
    borders (n :: lengths) = n :: (borders lengths).map (n + 1 + ·) := by
  obtain ⟨m, rest, rfl⟩ := List.exists_cons_of_ne_nil h
  rfl

/-- The first piece grows at its start. -/
theorem borders_foldr_consFirst (block : List Char) {pieces : List (List Char)} (h : pieces ≠ []) :
    borders ((block.foldr consFirst pieces).map List.length) =
      (borders (pieces.map List.length)).map (block.length + ·) := by
  obtain ⟨first, others, rfl⟩ := List.exists_cons_of_ne_nil h
  rw [foldr_consFirst_cons]
  cases others with
  | nil => rfl
  | cons second others =>
    simp only [List.map_cons, borders, List.length_append, List.map_map]
    congr 2
    funext i
    simp only [Function.comp_apply]
    omega

theorem Divides.block {q q' : Quoting} {block rest : List Char} (hb : Block q block q')
    {pieces : List (List Char)} (hne : pieces ≠ []) (h : ∀ draft, Divides q' draft rest pieces)
    (draft : Option Draft) : Divides q draft (block ++ rest) (block.foldr consFirst pieces) := by
  intro i
  obtain ⟨draft₁, hpass⟩ := hb.passed draft rest
  rw [borders_foldr_consFirst block hne, List.mem_map]
  rcases Nat.lt_or_ge i block.length with hi | hi
  · refine iff_of_false (fun ⟨j, _, hj⟩ => by omega) fun ⟨hpipe, draft', hreach⟩ => ?_
    rw [List.getElem?_append_left hi] at hpipe
    exact hb.noPipe draft rest i draft' hi hreach hpipe
  · obtain ⟨j, rfl⟩ := Nat.exists_eq_add_of_le hi
    have hreach (draft' : Option Draft) :
        Reader.Reaches ⟨q, draft, block ++ rest⟩ ⟨.plain, draft', rest.drop j⟩ ↔
          Reader.Reaches ⟨q', draft₁, rest⟩ ⟨.plain, draft', rest.drop j⟩ :=
      ⟨fun h => hpass.of_length h (by simp), hpass.trans⟩
    simp only [List.getElem?_append_right hi, Nat.add_sub_cancel_left,
      List.drop_length_add_append, hreach, ← h draft₁ j]
    exact ⟨fun ⟨k, hk, hkj⟩ => by rwa [← Nat.add_left_cancel hkj], fun hj => ⟨j, hj, rfl⟩⟩

/-- A pipe outside quotes. -/
theorem Divides.pipe {rest : List Char} {pieces : List (List Char)} (hne : pieces ≠ [])
    (h : ∀ draft, Divides .plain draft rest pieces) (draft : Option Draft) :
    Divides .plain draft ('|' :: rest) ([] :: pieces) := by
  intro i
  have hturn : Reader.turn ⟨.plain, draft, '|' :: rest⟩ =
      some ([], .push .plain draft '|' rest) := by
    cases rest <;> simp [Reader.turn]
  rw [List.map_cons, borders_cons _ (by simpa using hne)]
  cases i with
  | zero => simpa using ⟨draft, Relation.ReflTransGen.refl⟩
  | succ j =>
    have hreach (draft' : Option Draft) :
        Reader.Reaches ⟨.plain, draft, '|' :: rest⟩ ⟨.plain, draft', rest.drop j⟩ ↔
          (Reader.push .plain draft '|' rest).Reaches ⟨.plain, draft', rest.drop j⟩ := by
      refine ⟨fun h => ?_, .head ⟨[], hturn⟩⟩
      refine (h.of_turn hturn).resolve_left fun heq => ?_
      have := congrArg (fun r => r.rest.length) heq
      simp at this
      omega
    have hrest := h (some ((draft.getD {}).push '|')) j
    simp only [List.length_nil, List.mem_cons, List.mem_map, List.getElem?_cons_succ,
      List.drop_succ_cons, hreach]
    rw [Reader.push, ← hrest]
    constructor
    · rintro (hj | ⟨k, hk, hkj⟩)
      · omega
      · rwa [show j = k by omega]
    · exact fun hj => .inr ⟨j, hj, by omega⟩

/-- Cutting takes one block after the other, or a pipe outside quotes; a backslash at the end of the
line stands alone. -/
theorem cut_induction {P : Quoting → List Char → List (List Char) → Prop}
    (nil : ∀ q, P q [] [[]]) (escape : ∀ q, P q ['\\'] [['\\']])
    (block : ∀ {q block q' rest}, Takes q block q' → P q' rest (cut q' rest) →
      P q (block ++ rest) (block.foldr consFirst (cut q' rest)))
    (pipe : ∀ rest, P .plain rest (cut .plain rest) →
      P .plain ('|' :: rest) ([] :: cut .plain rest))
    (q : Quoting) (cs : List Char) : P q cs (cut q cs) := by
  have hchoice {q₁ q₂ : Quoting} {c e : Char} {rest : List Char} (h₁ : P q₁ rest (cut q₁ rest))
      (h₂ : P q₂ rest (cut q₂ rest)) :
      P (if c = e then q₁ else q₂) rest (cut (if c = e then q₁ else q₂) rest) := by
    split
    · exact h₁
    · exact h₂
  fun_induction cut q cs with
  | case1 => exact nil _
  | case2 c rest ihPlain ihSingle =>
    rw [← apply_ite (cut · rest)]
    exact block (.single c) (hchoice ihPlain ihSingle)
  | case3 => exact escape _
  | case4 e rest ih => exact block (.doubleEscape e) ih
  | case5 c rest hc ihPlain ihDouble =>
    rw [← apply_ite (cut · rest)]
    exact block (.double hc) (hchoice ihPlain ihDouble)
  | case6 => exact escape _
  | case7 e rest ih => exact block (.escape e) ih
  | case8 rest _ ih => exact block .openSingle ih
  | case9 rest _ _ ih => exact block .openDouble ih
  | case10 rest _ _ _ ih => exact pipe rest ih
  | case11 c rest hescape hsingle hdouble hpipe ih =>
    exact block (.plain hescape hsingle hdouble hpipe) ih

/-- The pieces of a line meet at the pipes that the reader comes to outside quotes. -/
theorem divides_cut (q : Quoting) (cs : List Char) (draft : Option Draft) :
    Divides q draft cs (cut q cs) := by
  induction q, cs using cut_induction generalizing draft with
  | nil q => simp [Divides, borders]
  | escape q =>
    intro i
    cases i <;> simp [borders]
  | block hb ih => exact .block hb.block (cut_ne_nil _ _) ih draft
  | pipe rest ih => exact .pipe (cut_ne_nil _ _) ih draft

/-- The pieces, with pipes between them, are the line. -/
theorem intercalate_cut (q : Quoting) (cs : List Char) : ['|'].intercalate (cut q cs) = cs := by
  induction q, cs using cut_induction with
  | nil q => rfl
  | escape q => rfl
  | @block q block q' rest _ ih =>
    obtain ⟨first, others, hcut⟩ := List.exists_cons_of_ne_nil (cut_ne_nil q' rest)
    rw [hcut] at ih ⊢
    rw [foldr_consFirst_cons]
    cases others <;> simp_all [List.intercalate]
  | pipe rest ih =>
    obtain ⟨first, others, hcut⟩ := List.exists_cons_of_ne_nil (cut_ne_nil .plain rest)
    rw [hcut] at ih ⊢
    simpa [List.intercalate] using ih

/-- Each piece but the last leaves no quote open when it is read on its own, the first one with the
quoting that it starts in. -/
def Closes : Quoting → List (List Char) → Prop
  | _, [] | _, [_] => True
  | q, first :: second :: others =>
    (∀ draft, ∃ draft', Reader.Reaches ⟨q, draft, first⟩ ⟨.plain, draft', []⟩) ∧
      Closes .plain (second :: others)

theorem closes_cut (q : Quoting) (cs : List Char) : Closes q (cut q cs) := by
  induction q, cs using cut_induction with
  | nil q => trivial
  | escape q => trivial
  | @block q block q' rest hb ih =>
    obtain ⟨first, others, hcut⟩ := List.exists_cons_of_ne_nil (cut_ne_nil q' rest)
    rw [hcut] at ih ⊢
    rw [foldr_consFirst_cons]
    cases others with
    | nil => trivial
    | cons second others =>
      refine ⟨fun draft => ?_, ih.2⟩
      obtain ⟨draft₁, hpass⟩ := hb.block.passed draft first
      obtain ⟨draft', hend⟩ := ih.1 draft₁
      exact ⟨draft', hpass.trans hend⟩
  | pipe rest ih =>
    obtain ⟨first, others, hcut⟩ := List.exists_cons_of_ne_nil (cut_ne_nil .plain rest)
    rw [hcut] at ih ⊢
    exact ⟨fun draft => ⟨draft, .refl⟩, ih⟩

theorem Closes.of_mem {q : Quoting} {pieces : List (List Char)} (h : Closes q pieces)
    (hq : q = .plain) {piece : List Char} (hp : piece ∈ pieces.dropLast) :
    ∃ draft, Reader.Reaches ⟨.plain, none, piece⟩ ⟨.plain, draft, []⟩ := by
  fun_induction Closes q pieces with
  | case1 => simp at hp
  | case2 => simp at hp
  | case3 q first second others ih =>
    rw [List.dropLast_cons_cons] at hp
    rcases List.mem_cons.mp hp with rfl | hp
    · exact hq ▸ h.1 none
    · exact ih h.2 rfl hp

theorem pairwise_borders (lengths : List Nat) : (borders lengths).Pairwise (· < ·) := by
  fun_induction borders lengths with
  | case1 => exact .nil
  | case2 => exact .nil
  | case3 n m rest ih =>
    refine .cons (fun i hi => ?_) (ih.map _ fun i j hij => by omega)
    obtain ⟨j, -, rfl⟩ := List.mem_map.mp hi
    omega

theorem length_borders {lengths : List Nat} (h : lengths ≠ []) :
    lengths.length = (borders lengths).length + 1 := by
  fun_induction borders lengths with
  | case1 => exact absurd rfl h
  | case2 => rfl
  | case3 n m rest ih => simp [ih]

/-- The reader comes to a place of a line outside quotes. -/
def ComesTo (line : String) (i : Nat) : Prop :=
  ∃ draft, (Reader.start line).Reaches ⟨.plain, draft, line.toList.drop i⟩

/-- The two scanners agree on every line: the line is divided at the pipes that the reader of words
comes to outside quotes, and nowhere else. So the segments with pipes between them are the line,
there is one more of them than there are such pipes, and a segment that is not the last leaves no
quote open. -/
theorem divided_where_read (line : String) :
    (∀ r, (Reader.start line).Reaches r → ∃ ws, tokenize line = ws ++ r.words) ∧
    (∀ i, i ∈ borders ((rawSegments line).map String.length) ↔
      line.toList[i]? = some '|' ∧ ComesTo line i) ∧
    "|".intercalate (rawSegments line) = line ∧
    (rawSegments line).length = {i | line.toList[i]? = some '|' ∧ ComesTo line i}.ncard + 1 ∧
    ∀ segment ∈ (rawSegments line).dropLast,
      ∃ draft, (Reader.start segment).Reaches ⟨.plain, draft, []⟩ := by
  have hlengths : (rawSegments line).map String.length =
      (cut .plain line.toList).map List.length := by
    simp [rawSegments, Function.comp_def]
  have hborders (i : Nat) : i ∈ borders ((rawSegments line).map String.length) ↔
      line.toList[i]? = some '|' ∧ ComesTo line i := by
    rw [hlengths]
    exact divides_cut .plain line.toList none i
  refine ⟨fun r h => h.words_eq, hborders, ?_, ?_, ?_⟩
  · have hjoin := intercalate_cut .plain line.toList
    rw [← String.toList_inj]
    simpa [rawSegments, Function.comp_def] using hjoin
  · have hset : {i | line.toList[i]? = some '|' ∧ ComesTo line i} =
        (borders ((rawSegments line).map String.length)).toFinset := by
      ext i
      simp [hborders]
    have hne : (rawSegments line).map String.length ≠ [] := by
      simpa [rawSegments] using cut_ne_nil .plain line.toList
    have hcount := length_borders hne
    rw [List.length_map] at hcount
    rw [hset, Set.ncard_coe_finset, List.toFinset_card_of_nodup, hcount]
    exact (pairwise_borders _).imp Nat.ne_of_lt
  · intro segment hs
    rw [rawSegments, ← List.map_dropLast] at hs
    obtain ⟨piece, hp, rfl⟩ := List.mem_map.mp hs
    obtain ⟨draft, hend⟩ := (closes_cut .plain line.toList).of_mem rfl hp
    exact ⟨draft, by simpa [Reader.start] using hend⟩

end Word

end CommandShell
