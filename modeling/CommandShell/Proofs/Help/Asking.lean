import CommandShell.Proofs.Division
import CommandShell.Shell

/-!
# Words that ask for help

A word asks for help if it is `help` or `--help` and nothing of it is quoted. A word that has taken
any other character, or a quoted one, asks for no help any more, whatever else it takes. So what
comes before a text or after it can spoil the words at its ends, but makes none of them ask for
help; and what is set off by a plain space spoils none.

## Main statements

- `Word.asks_of_spoiled`: the words behind one that is spoiled do not depend on it.
- `Word.reads_or_escapes`: a text is read in one way whatever follows it, but for a backslash at its
  end.
- `Word.asks_of_around`: characters around a text make no word of it ask for help.
- `Word.asks_append_space`: a word that asks for help does so also if a plain space follows.
-/

namespace CommandShell.Word

/-- Whether a word asks for help. -/
def asks (w : Word) : Bool := Shell.helpWords.contains w.text && !w.quoted

/-- The characters of the words that ask for help. -/
def helpChars : List Char := ['h', 'e', 'l', 'p', '-']

/-- A character that quotes nothing and stands in no word that asks for help. -/
def Foreign (c : Char) : Prop := c ∉ '\'' :: '"' :: '\\' :: helpChars

instance (c : Char) : Decidable (Foreign c) := inferInstanceAs (Decidable (c ∉ _))

theorem foreign_pipe : Foreign '|' := by decide

theorem foreign_of_isBlank {c : Char} (h : Text.isBlank c = true) : Foreign c := by
  intro hc
  have hall : ∀ c ∈ '\'' :: '"' :: '\\' :: helpChars, Text.isBlank c = false := by
    simp [helpChars, Text.isBlank]
  exact absurd h (by simp [hall c hc])

namespace Draft

/-- A draft that becomes no word that asks for help, whatever is added to it. -/
def Spoiled (d : Draft) : Prop := d.quoted = true ∨ ∃ c ∈ d.chars, c ∉ helpChars

theorem Spoiled.push {d : Draft} (h : d.Spoiled) (c : Char) : (d.push c).Spoiled := by
  rcases h with h | ⟨c', hc', hne⟩
  · exact .inl h
  · exact .inr ⟨c', List.mem_cons_of_mem c hc', hne⟩

theorem spoiled_push (d : Draft) {c : Char} (hc : c ∉ helpChars) : (d.push c).Spoiled :=
  .inr ⟨c, List.mem_cons_self, hc⟩

theorem spoiled_quote (d : Draft) : d.quote.Spoiled := .inl rfl

theorem Spoiled.asks_toWord {d : Draft} (h : d.Spoiled) : d.toWord.asks = false := by
  rcases h with h | ⟨c, hc, hne⟩
  · simp [asks, toWord, h]
  · have hchars : ∀ word ∈ Shell.helpWords, ∀ c ∈ word.toList, c ∈ helpChars := by
      simp [Shell.helpWords, helpChars]
    have hnot : String.ofList d.chars.reverse ∉ Shell.helpWords :=
      fun hw => hne (hchars _ hw c (by simpa using hc))
    simp [asks, toWord, hnot]

end Draft

/-- A word that is spoiled asks for no help: what is asked behind it is asked whatever the word
began with. -/
theorem asks_of_spoiled {q : Quoting} {d : Draft} (hd : d.Spoiled) (draft : Option Draft)
    {cs : List Char} (h : (scan q (some d) cs).any asks = true) :
    (scan q draft cs).any asks = true := by
  generalize hbegun : some d = begun at h
  fun_induction scan q begun cs generalizing d draft with
  | case1 => cases hbegun
  | case2 =>
    cases hbegun
    simp [hd.asks_toWord] at h
  | case3 _ _ ih | case5 _ _ ih =>
    subst hbegun
    simpa using ih hd draft rfl h
  | case10 _ rest ih =>
    -- a plain space ends the word
    subst hbegun
    simp only [Option.map_some, Option.toList_some, List.cons_append, List.any_cons, hd.asks_toWord,
      Bool.false_or, List.nil_append] at h
    simp [h]
  | case11 _ _ _ ih | case12 _ _ _ _ ih =>
    simpa using ih (Draft.spoiled_quote _) (some (draft.getD {}).quote) rfl h
  | case14 _ e _ _ _ _ ih =>
    simpa using ih (Draft.spoiled_quote _) (some ((draft.getD {}).push e).quote) rfl h
  | case4 _ c _ hc ih =>
    subst hbegun
    rw [scan_single_of_ne _ _ hc]
    exact ih (hd.push c) _ rfl h
  | case6 _ _ ih | case8 _ _ _ _ _ ih =>
    subst hbegun
    simpa [scan, *] using ih (hd.push _) (some ((draft.getD {}).push '\\')) rfl h
  | case7 _ e _ _ _ ih =>
    subst hbegun
    simpa [scan, *] using ih (hd.push e) (some ((draft.getD {}).push e)) rfl h
  | case9 _ c _ hdouble hescape ih =>
    subst hbegun
    rw [scan_double_of_ne _ _ hdouble hescape]
    exact ih (hd.push c) _ rfl h
  | case13 _ _ _ _ ih =>
    subst hbegun
    simpa [scan] using ih (hd.push _) (some ((draft.getD {}).push '\\')) rfl h
  | case15 _ c _ hspace hsingle hdouble hescape ih =>
    subst hbegun
    rw [scan_plain_of_ne _ _ hspace hsingle hdouble hescape]
    exact ih (hd.push c) _ rfl h

/-- Behind a character that belongs to no word asking for help, it does not matter which one it
was. -/
theorem asks_spoiled_congr {q : Quoting} {d d' : Draft} (hd : d.Spoiled) (hd' : d'.Spoiled)
    (cs : List Char) : (scan q (some d) cs).any asks = (scan q (some d') cs).any asks := by
  rw [Bool.eq_iff_iff]
  exact ⟨asks_of_spoiled hd _, asks_of_spoiled hd' _⟩

/-- Inside quotes the word that has been begun is a quoted one. -/
def Opened (q : Quoting) (draft : Option Draft) : Prop :=
  q = .plain ∨ ∃ d, draft = some d ∧ d.quoted = true

theorem Opened.push {q : Quoting} {draft : Option Draft} (h : Opened q draft) (c : Char) :
    Opened q (some ((draft.getD {}).push c)) := by
  rcases h with h | ⟨d, rfl, hd⟩
  · exact .inl h
  · exact .inr ⟨d.push c, rfl, hd⟩

/-- Characters that are read in one way whatever follows them. -/
def Reads (q : Quoting) (block : List Char) (q' : Quoting) : Prop :=
  ∀ draft, ∃ ws draft', (∀ rest, scan q draft (block ++ rest) = ws ++ scan q' draft' rest) ∧
    (Opened q draft → Opened q' draft')

theorem Reads.nil (q : Quoting) : Reads q [] q := fun draft => ⟨[], draft, fun _ => rfl, id⟩

theorem Reads.append {q q₁ q₂ : Quoting} {block block' : List Char} (h : Reads q block q₁)
    (h' : Reads q₁ block' q₂) : Reads q (block ++ block') q₂ := by
  intro draft
  obtain ⟨ws, draft₁, hread, hopen⟩ := h draft
  obtain ⟨ws', draft₂, hread', hopen'⟩ := h' draft₁
  refine ⟨ws ++ ws', draft₂, fun rest => ?_, hopen' ∘ hopen⟩
  rw [List.append_assoc, hread, hread', List.append_assoc]

/-- A character that is added to the word. -/
theorem Reads.push {q : Quoting} {block : List Char} (c : Char)
    (h : ∀ draft rest, scan q draft (block ++ rest) = scan q (some ((draft.getD {}).push c)) rest) :
    Reads q block q :=
  fun draft => ⟨[], _, h draft, fun hopen => hopen.push c⟩

theorem reads_pipe : Reads .plain ['|'] .plain :=
  .push '|' fun draft rest =>
    scan_plain_of_ne draft rest (by decide) (by decide) (by decide) (by decide)

/-- What cutting takes at a time is read whatever follows it. -/
theorem Takes.reads {q q' : Quoting} {block : List Char} (h : Takes q block q') :
    Reads q block q' := by
  cases h with
  | single c =>
    split
    · next hc =>
      subst hc
      exact fun draft => ⟨[], draft, scan_single_quote draft, fun _ => .inl rfl⟩
    · next hc => exact .push c fun draft rest => scan_single_of_ne draft rest hc
  | @double c hescape =>
    split
    · next hc =>
      subst hc
      exact fun draft => ⟨[], draft, scan_double_quote draft, fun _ => .inl rfl⟩
    · next hc => exact .push c fun draft rest => scan_double_of_ne draft rest hc hescape
  | doubleEscape e =>
    cases he : isEscapable e with
    | true => exact .push e fun draft rest => by simp [scan, he]
    | false =>
      -- the backslash stands for itself, and then so does the character
      have hquote : e ≠ '"' := by rintro rfl; cases he
      have hescape : e ≠ '\\' := by rintro rfl; cases he
      refine fun draft => ⟨[], _, fun rest => ?_, fun hopen => (hopen.push '\\').push e⟩
      simp [scan, he, scan_double_of_ne _ _ hquote hescape]
  | escape e =>
    exact fun draft => ⟨[], _, fun rest => scan_plain_escape draft rest e, fun _ => .inl rfl⟩
  | openSingle =>
    exact fun draft => ⟨[], _, scan_plain_single draft, fun _ => .inr ⟨_, rfl, rfl⟩⟩
  | openDouble =>
    exact fun draft => ⟨[], _, scan_plain_double draft, fun _ => .inr ⟨_, rfl, rfl⟩⟩
  | @plain c hescape hsingle hdouble hpipe =>
    by_cases hspace : c = ' '
    · subst hspace
      exact fun draft => ⟨_, none, scan_plain_space draft, fun _ => .inl rfl⟩
    · exact .push c fun draft rest => scan_plain_of_ne draft rest hspace hsingle hdouble hescape

/-- Characters are read in one way whatever follows them, unless the last one is a backslash that is
left over. -/
theorem reads_or_escapes (q : Quoting) (cs : List Char) :
    (∃ q', Reads q cs q') ∨ ∃ p q', cs = p ++ ['\\'] ∧ q' ≠ .single ∧ Reads q p q' := by
  induction q, cs using cut_induction with
  | nil q => exact .inl ⟨q, .nil q⟩
  | escape q =>
    cases q with
    | single => exact .inl ⟨_, (Takes.single '\\').reads⟩
    | _ => exact .inr ⟨[], _, rfl, by simp, .nil _⟩
  | block htakes ih =>
    rcases ih with ⟨q', h⟩ | ⟨p, q', rfl, hq, h⟩
    · exact .inl ⟨q', htakes.reads.append h⟩
    · exact .inr ⟨_, q', (List.append_assoc ..).symm, hq, htakes.reads.append h⟩
  | pipe rest ih =>
    rcases ih with ⟨q', h⟩ | ⟨p, q', rfl, hq, h⟩
    · exact .inl ⟨q', reads_pipe.append h⟩
    · exact .inr ⟨'|' :: p, q', rfl, hq, reads_pipe.append h⟩

theorem not_asks_escape {q : Quoting} (hq : q ≠ .single) (draft : Option Draft) :
    (scan q draft ['\\']).any asks = false := by
  have hspoiled := (Draft.spoiled_push (draft.getD {}) (c := '\\') (by decide)).asks_toWord
  cases q <;> simp_all [scan]

/-- What is asked is asked also if a plain space follows. -/
theorem asks_append_space {p : List Char} (h : (scan .plain none p).any asks = true)
    (rest : List Char) : (scan .plain none (p ++ ' ' :: rest)).any asks = true := by
  rcases reads_or_escapes .plain p with ⟨q, hreads⟩ | ⟨p, q, rfl, hq, hreads⟩
  · obtain ⟨ws, draft, hread, hopen⟩ := hreads none
    have hend := hread []
    rw [List.append_nil] at hend
    rw [hend, List.any_append, Bool.or_eq_true] at h
    rw [hread, List.any_append, Bool.or_eq_true]
    refine h.imp_right fun hlast => ?_
    rw [scan_end] at hlast
    rcases hopen (.inl rfl) with rfl | ⟨d, rfl, hd⟩
    · rw [scan_plain_space, List.any_append, hlast, Bool.true_or]
    · -- a quoted word asks for no help
      simp [Draft.Spoiled.asks_toWord (.inl hd)] at hlast
  · obtain ⟨ws, draft, hread, -⟩ := hreads none
    rw [hread, List.any_append, not_asks_escape hq, Bool.or_false] at h
    rw [List.append_assoc, hread, List.any_append, h, Bool.true_or]

/-- What is asked is asked also without a foreign character in front. -/
theorem asks_of_cons {c : Char} (hc : Foreign c) {p : List Char}
    (h : (scan .plain none (c :: p)).any asks = true) : (scan .plain none p).any asks = true := by
  by_cases hspace : c = ' '
  · subst hspace
    simpa using h
  · rw [scan_plain_of_ne _ _ hspace (by grind [Foreign]) (by grind [Foreign]) (by grind [Foreign])]
      at h
    exact asks_of_spoiled (Draft.spoiled_push _ (by grind [Foreign])) none h

/-- A foreign character at the end makes no word ask for help. -/
theorem asks_of_append {c : Char} (hc : Foreign c) {p : List Char}
    (h : (scan .plain none (p ++ [c])).any asks = true) : (scan .plain none p).any asks = true := by
  have hspoiled (d : Draft) : (d.push c).toWord.asks = false :=
    (Draft.spoiled_push d (by grind [Foreign])).asks_toWord
  have hsingle : c ≠ '\'' := by grind [Foreign]
  have hdouble : c ≠ '"' := by grind [Foreign]
  have hescape : c ≠ '\\' := by grind [Foreign]
  rcases reads_or_escapes .plain p with ⟨q, hreads⟩ | ⟨p, q, rfl, hq, hreads⟩
  · obtain ⟨ws, draft, hread, -⟩ := hreads none
    have hend := hread []
    rw [List.append_nil] at hend
    rw [hread, List.any_append, Bool.or_eq_true] at h
    rw [hend, List.any_append, Bool.or_eq_true]
    refine h.imp_right fun h => ?_
    cases q with
    | single => simp [scan_single_of_ne _ _ hsingle, scan_end, hspoiled] at h
    | double => simp [scan_double_of_ne _ _ hdouble hescape, scan_end, hspoiled] at h
    | plain =>
      by_cases hspace : c = ' '
      · subst hspace
        simpa [scan_end] using h
      · simp [scan_plain_of_ne _ _ hspace hsingle hdouble hescape, scan_end, hspoiled] at h
  · obtain ⟨ws, draft, hread, -⟩ := hreads none
    rw [List.append_assoc, hread, List.any_append, Bool.or_eq_true] at h
    rw [hread, List.any_append, Bool.or_eq_true]
    refine .inl (h.resolve_right ?_)
    cases q with
    | single => exact absurd rfl hq
    | double => cases he : isEscapable c <;> simp [scan, he, hspoiled, hdouble]
    | plain => simp [scan_end, Draft.Spoiled.asks_toWord (Draft.spoiled_quote _)]

/-- Foreign characters around a text make no word of it ask for help. -/
theorem asks_of_around {before after : List Char} (hbefore : ∀ c ∈ before, Foreign c)
    (hafter : ∀ c ∈ after, Foreign c) {p : List Char}
    (h : (scan .plain none (before ++ p ++ after)).any asks = true) :
    (scan .plain none p).any asks = true := by
  have hfront : (scan .plain none (p ++ after)).any asks = true := by
    induction before with
    | nil => exact h
    | cons c before ih => exact ih (by grind) (asks_of_cons (hbefore c (by simp)) h)
  clear h hbefore before
  induction after generalizing p with
  | nil => simpa using hfront
  | cons c after ih =>
    rw [List.append_cons] at hfront
    exact asks_of_append (hafter c (by simp)) (ih (by grind) hfront)

/-- What stands between a segment and the end of its piece: nothing but plain spaces, or a pipe and
at least one plain space. -/
inductive Margin : List Char → Prop where
  | spaces (n : Nat) : Margin (List.replicate n ' ')
  | pipe (n : Nat) : Margin ('|' :: List.replicate (n + 1) ' ')

/-- A segment is set off from its pipes by plain spaces and nothing else. -/
def Apart (piece segment : String) : Prop :=
  ∃ before after, Margin before ∧ Margin after.reverse ∧
    piece.toList = before ++ segment.toList ++ after

theorem Margin.foreign {cs : List Char} (h : Margin cs) : ∀ c ∈ cs, Foreign c := by
  have hspaces (n : Nat) : ∀ c ∈ List.replicate n ' ', Foreign c :=
    fun c hc => (List.mem_replicate.mp hc).2 ▸ by decide
  cases h with
  | spaces n => exact hspaces n
  | pipe n => exact List.forall_mem_cons.mpr ⟨foreign_pipe, hspaces _⟩

/-- In front of a segment a margin changes nothing. -/
theorem Margin.asks_append {cs : List Char} (h : Margin cs) (p : List Char) :
    (scan .plain none (cs ++ p)).any asks = (scan .plain none p).any asks := by
  have hspaces (n : Nat) : scan .plain none (List.replicate n ' ' ++ p) = scan .plain none p := by
    induction n with
    | zero => rfl
    | succ n ih => simpa [List.replicate_succ] using ih
  cases h with
  | spaces n => rw [hspaces]
  | pipe n =>
    rw [List.cons_append, scan_plain_of_ne _ _ (by decide) (by decide) (by decide) (by decide),
      List.replicate_succ, List.cons_append, scan_plain_space, hspaces]
    simp only [Option.map_some, Option.toList_some, List.cons_append, List.nil_append,
      List.any_cons,
      (Draft.spoiled_push _ (show '|' ∉ helpChars by decide)).asks_toWord, Bool.false_or]

/-- Behind a segment a margin is nothing, or starts with a plain space. -/
theorem Margin.eq_reverse {cs : List Char} (h : Margin cs.reverse) :
    cs = [] ∨ ∃ rest, cs = ' ' :: rest := by
  generalize hr : cs.reverse = r at h
  obtain rfl := List.reverse_eq_iff.mp hr
  cases h with
  | spaces n =>
    rw [List.reverse_replicate]
    cases n <;> simp [List.replicate_succ]
  | pipe n =>
    rw [List.reverse_cons, List.reverse_replicate, List.replicate_succ]
    simp

end CommandShell.Word
