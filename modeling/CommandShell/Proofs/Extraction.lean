import CommandShell.Redirection
import Mathlib.Algebra.Ring.Parity
import Mathlib.Data.List.DropRight

/-!
# Redirections among the words of a command

The words of a command are parts in a row: arguments, operators with their file glued on, and
operators with the next word as their file, whatever that word looks like. Every list of words is
such a row, or it is one and an operator after it that lacks its file. So what is found in two lists
in a row is what is found in each of them, and there is something wrong with a list of words just if
an odd number of operators stands at its end.

## Main definitions

* `Redirection.Part`: a part of a command, with the words that it consists of.
* `Redirection.bareRun`: the operators without a file at the end of a list of words.

## Main statements

* `Redirection.operatorOf?_eq_some_iff`: of the operators that a word starts with the longest one
  counts.
* `Redirection.extract_eq_ok_iff`, `Redirection.extract_eq_error_iff`: what comes of the parts of a
  command.
* `Redirection.extract_append`: extraction of two lists in a row.
* `Redirection.extract_fails_iff`: when extraction fails.
-/

namespace CommandShell

namespace Redirections

/-- What is redirected by some operators and others after them: for each channel the last one
counts. -/
def followedBy (r later : Redirections) : Redirections where
  out := later.out.or r.out
  err := later.err.or r.err

@[simp] theorem empty_followedBy (r : Redirections) : followedBy {} r = r := by
  simp [followedBy]

@[simp] theorem followedBy_empty (r : Redirections) : r.followedBy {} = r := by
  simp [followedBy]

theorem followedBy_assoc (r r' r'' : Redirections) :
    (r.followedBy r').followedBy r'' = r.followedBy (r'.followedBy r'') := by
  simp [followedBy, Option.or_assoc]

/-- Redirections of different channels may change places. -/
theorem followedBy_comm {r r' : Redirections} (herr : r.err = none) (hout : r'.out = none) :
    r.followedBy r' = r'.followedBy r := by
  simp [followedBy, herr, hout]

end Redirections

namespace Redirection

/-! ## Operators -/

/-- None of the operators begins with one that is tried before it. -/
theorem pairwise_operators :
    operators.Pairwise fun o o' => ¬ o.spelling.toList <+: o'.spelling.toList := by
  decide

theorem eq_of_spelling_eq : ∀ o ∈ operators, ∀ o' ∈ operators, o.spelling = o'.spelling →
    o = o' := by
  decide

/-- The operator that is found is the longest one that the word starts with. -/
theorem longest_of_operatorOf? {w : Word} {o : Operator} (h : operatorOf? w = some o) :
    o ∈ operators ∧ o.spelling.toList <+: w.text.toList ∧
      ∀ o' ∈ operators, o'.spelling.toList <+: w.text.toList →
        o'.spelling.length ≤ o.spelling.length := by
  unfold operatorOf? at h
  split at h
  · cases h
  obtain ⟨hstarts, before, after, hsplit, hbefore⟩ := List.find?_eq_some_iff_append.mp h
  have hprefix : o.spelling.toList <+: w.text.toList := List.isPrefixOf_iff_prefix.mp hstarts
  refine ⟨by simp [hsplit], hprefix, fun o' hmem hprefix' => ?_⟩
  rw [hsplit, List.mem_append, List.mem_cons] at hmem
  obtain hearlier | rfl | hlater := hmem
  · have hnot := hbefore o' hearlier
    simp [List.isPrefixOf_iff_prefix.mpr hprefix'] at hnot
  · exact Nat.le_refl _
  · -- one of the two begins with the other, and it is not the later one
    have hpairwise := pairwise_operators
    rw [hsplit] at hpairwise
    have hnot := List.rel_of_pairwise_cons (List.pairwise_append.mp hpairwise).2.1 hlater
    obtain hle | hle := List.prefix_or_prefix_of_prefix hprefix hprefix'
    · exact absurd hle hnot
    · simpa only [String.length_toList] using hle.length_le

/-- Of the operators that an unquoted word starts with the longest one counts. -/
theorem operatorOf?_eq_some_iff {w : Word} (hw : w.quoted = false) (o : Operator) :
    operatorOf? w = some o ↔ o ∈ operators ∧ o.spelling.toList <+: w.text.toList ∧
      ∀ o' ∈ operators, o'.spelling.toList <+: w.text.toList →
        o'.spelling.length ≤ o.spelling.length := by
  refine ⟨longest_of_operatorOf?, ?_⟩
  rintro ⟨hmem, hprefix, hlongest⟩
  have hfound : (operatorOf? w).isSome := by
    rw [operatorOf?, if_neg (by simp [hw]), List.find?_isSome]
    exact ⟨o, hmem, List.isPrefixOf_iff_prefix.mpr hprefix⟩
  obtain ⟨o', ho'⟩ := Option.isSome_iff_exists.mp hfound
  obtain ⟨hmem', hprefix', hlongest'⟩ := longest_of_operatorOf? ho'
  have hlength : o'.spelling.toList.length = o.spelling.toList.length := by
    have hle := hlongest o' hmem' hprefix'
    have hge := hlongest' o hmem hprefix
    simp only [String.length_toList]
    omega
  have hsame : o'.spelling.toList = o.spelling.toList :=
    (List.prefix_of_prefix_length_le hprefix' hprefix hlength.le).eq_of_length hlength
  rw [ho', eq_of_spelling_eq o' hmem' o hmem (String.toList_inj.mp hsame)]

/-! ## Parts -/

/-- A word that is no operator. The operator that merges the channels is none if something is glued
on. -/
def IsArgument (w : Word) : Prop :=
  ∀ o, operatorOf? w = some o → o.effect = .merge ∧ w.text ≠ o.spelling

/-- A part of a command. -/
inductive Part where
  | argument (w : Word) (plain : IsArgument w)
  | merge (w : Word) (whole : operatorOf? w = some ⟨w.text, .merge⟩)
  /-- An operator with its file glued on. -/
  | glued (w : Word) (spelling : String) (channel : Channel) (mode : OpenMode)
    (starts : operatorOf? w = some ⟨spelling, .toFile channel mode⟩) (more : w.text ≠ spelling)
  /-- An operator and the next word, which is its file whatever it looks like. -/
  | file (w operand : Word) (channel : Channel) (mode : OpenMode)
    (whole : operatorOf? w = some ⟨w.text, .toFile channel mode⟩)

namespace Part

def words : Part → List Word
  | argument w _ | merge w _ | glued w _ _ _ _ _ => [w]
  | file w operand _ _ _ => [w, operand]

def arguments : Part → List Word
  | argument w _ => [w]
  | merge _ _ | glued _ _ _ _ _ _ | file _ _ _ _ _ => []

/-- The word that an operator takes for its file. -/
def operand? : Part → Option Word
  | argument _ _ | merge _ _ | glued _ _ _ _ _ _ => none
  | file _ operand _ _ _ => some operand

/-- What a part redirects. -/
def found : Part → Redirections
  | argument _ _ => {}
  | merge _ _ => { err := some .merge }
  | glued w spelling channel mode _ _ =>
    assign {} channel ⟨mode, Redirection.glued ⟨spelling, .toFile channel mode⟩ w⟩
  | file _ operand channel mode _ => assign {} channel ⟨mode, operand.text⟩

end Part

/-- What some parts redirect. -/
def foundIn (parts : List Part) : Redirections := parts.foldr (fun p r => p.found.followedBy r) {}

theorem foundIn_append (parts parts' : List Part) :
    foundIn (parts ++ parts') = (foundIn parts).followedBy (foundIn parts') := by
  induction parts with
  | nil => simp [foundIn]
  | cons p parts ih =>
    simp only [foundIn, List.cons_append, List.foldr_cons] at ih ⊢
    rw [ih, Redirections.followedBy_assoc]

theorem assign_eq (r : Redirections) (channel : Channel) (target : FileTarget) :
    assign r channel target = r.followedBy (assign {} channel target) := by
  cases channel <;> simp [assign, Redirections.followedBy]

/-- What comes of an extraction, with more arguments in front. -/
def inFront (args : List Word) (x : Except MissingOperand (List Word × Redirections)) :
    Except MissingOperand (List Word × Redirections) :=
  x.map fun (args', r) => (args ++ args', r)

@[simp] theorem inFront_ok (args args' : List Word) (r : Redirections) :
    inFront args (.ok (args', r)) = .ok (args ++ args', r) := rfl

@[simp] theorem inFront_error (args : List Word) (e : MissingOperand) :
    inFront args (.error e) = .error e := rfl

@[simp] theorem inFront_nil (x : Except MissingOperand (List Word × Redirections)) :
    inFront [] x = x := by
  cases x <;> rfl

theorem inFront_inFront (args args' : List Word)
    (x : Except MissingOperand (List Word × Redirections)) :
    inFront args (inFront args' x) = inFront (args ++ args') x := by
  cases x <;> simp [inFront, Except.map]

/-- Extraction takes a part at a time. -/
theorem extractFrom_part (r : Redirections) (p : Part) (rest : List Word) :
    extractFrom r (p.words ++ rest) =
      inFront p.arguments (extractFrom (r.followedBy p.found) rest) := by
  cases p with
  | argument w plain =>
    rw [Part.found, Redirections.followedBy_empty, Part.words, List.singleton_append, extractFrom]
    rcases hop : operatorOf? w with _ | ⟨spelling, effect⟩
    · rfl
    · obtain ⟨rfl, hmore⟩ := plain _ hop
      exact if_neg hmore
  | merge w whole =>
    simp [Part.words, Part.arguments, Part.found, extractFrom, whole, Redirections.followedBy]
  | glued w spelling channel mode starts more =>
    simp [Part.words, Part.arguments, Part.found, extractFrom, starts, more, ← assign_eq]
  | file w operand channel mode whole =>
    simp [Part.words, Part.arguments, Part.found, extractFrom, whole, ← assign_eq]

theorem extractFrom_parts (r : Redirections) (parts : List Part) (rest : List Word) :
    extractFrom r (parts.flatMap Part.words ++ rest) =
      inFront (parts.flatMap Part.arguments) (extractFrom (r.followedBy (foundIn parts)) rest) := by
  induction parts generalizing r with
  | nil => simp [foundIn]
  | cons p parts ih =>
    rw [List.flatMap_cons, List.append_assoc, extractFrom_part, ih, inFront_inFront,
      Redirections.followedBy_assoc]
    rfl

/-- An operator that takes the next word as its file. -/
def AwaitsFile (w : Word) : Prop :=
  ∃ channel mode, operatorOf? w = some ⟨w.text, .toFile channel mode⟩

/-- Every list of words is made of parts, but for an operator at its end that lacks its file. -/
theorem exists_parts : (words : List Word) →
    ∃ parts : List Part, words = parts.flatMap Part.words ∨
      ∃ w, AwaitsFile w ∧ words = parts.flatMap Part.words ++ [w]
  | [] => ⟨[], .inl rfl⟩
  | w :: rest => by
    have hcons (p : Part) (rest : List Word)
        (h : ∃ parts : List Part, rest = parts.flatMap Part.words ∨
          ∃ w, AwaitsFile w ∧ rest = parts.flatMap Part.words ++ [w]) :
        ∃ parts : List Part, p.words ++ rest = parts.flatMap Part.words ∨
          ∃ w, AwaitsFile w ∧ p.words ++ rest = parts.flatMap Part.words ++ [w] := by
      obtain ⟨parts, rfl | ⟨w, hw, rfl⟩⟩ := h
      · exact ⟨p :: parts, .inl rfl⟩
      · exact ⟨p :: parts, .inr ⟨w, hw, by simp⟩⟩
    by_cases hplain : IsArgument w
    · exact hcons (.argument w hplain) rest (exists_parts rest)
    rcases hop : operatorOf? w with _ | ⟨spelling, _ | _⟩
    · exact absurd (by simp [IsArgument, hop]) hplain
    · next channel mode =>
      by_cases hwhole : w.text = spelling
      · subst hwhole
        match rest with
        | [] => exact ⟨[], .inr ⟨w, ⟨channel, mode, hop⟩, rfl⟩⟩
        | operand :: rest => exact hcons (.file w operand channel mode hop) rest (exists_parts rest)
      · exact hcons (.glued w spelling channel mode hop hwhole) rest (exists_parts rest)
    · by_cases hwhole : w.text = spelling
      · subst hwhole
        exact hcons (.merge w hop) rest (exists_parts rest)
      · exact absurd (by simp [IsArgument, hop, hwhole]) hplain

theorem extract_parts (parts : List Part) :
    extract (parts.flatMap Part.words) = .ok (parts.flatMap Part.arguments, foundIn parts) := by
  have h := extractFrom_parts {} parts []
  rw [List.append_nil] at h
  simp [extract, h, extractFrom]

theorem extract_lacking (parts : List Part) {w : Word} (hw : AwaitsFile w) :
    extract (parts.flatMap Part.words ++ [w]) = .error ⟨w.text⟩ := by
  obtain ⟨channel, mode, hop⟩ := hw
  rw [extract, extractFrom_parts]
  simp [extractFrom, hop]

/-- Extraction succeeds on the lists of words that are made of parts. -/
theorem extract_eq_ok_iff (words args : List Word) (r : Redirections) :
    extract words = .ok (args, r) ↔
      ∃ parts : List Part, words = parts.flatMap Part.words ∧ args = parts.flatMap Part.arguments ∧
        r = foundIn parts := by
  constructor
  · intro h
    obtain ⟨parts, rfl | ⟨w, hw, rfl⟩⟩ := exists_parts words
    · rw [extract_parts] at h
      cases h
      exact ⟨parts, rfl, rfl, rfl⟩
    · rw [extract_lacking parts hw] at h
      cases h
  · rintro ⟨parts, rfl, rfl, rfl⟩
    exact extract_parts parts

/-- Extraction fails on those with an operator at their end that lacks its file. -/
theorem extract_eq_error_iff (words : List Word) (e : MissingOperand) :
    extract words = .error e ↔
      ∃ (parts : List Part) (w : Word), AwaitsFile w ∧ words = parts.flatMap Part.words ++ [w] ∧
        e = ⟨w.text⟩ := by
  constructor
  · intro h
    obtain ⟨parts, rfl | ⟨w, hw, rfl⟩⟩ := exists_parts words
    · rw [extract_parts] at h
      cases h
    · rw [extract_lacking parts hw] at h
      cases h
      exact ⟨parts, w, hw, rfl, rfl⟩
  · rintro ⟨parts, w, hw, rfl, rfl⟩
    exact extract_lacking parts hw

/-! ## Two lists in a row -/

theorem Part.arguments_sublist (p : Part) : p.arguments.Sublist p.words := by
  cases p <;> simp [arguments, words]

theorem arguments_sublist (parts : List Part) :
    (parts.flatMap Part.arguments).Sublist (parts.flatMap Part.words) := by
  induction parts with
  | nil => exact .slnil
  | cons p parts ih => exact p.arguments_sublist.append ih

/-- A quoted word is no operator. -/
theorem not_quoted_of_operatorOf? {w : Word} {o : Operator} (h : operatorOf? w = some o) :
    w.quoted = false := by
  unfold operatorOf? at h
  split at h
  · cases h
  · simp_all

/-- A quoted word of a part is an argument, or the file of an operator. -/
theorem Part.quoted_cases {p : Part} {w : Word} (h : w ∈ p.words) (hquoted : w.quoted = true) :
    w ∈ p.arguments ∨ p.operand? = some w := by
  have hnot {o : Operator} (hop : operatorOf? w = some o) : False := by
    simp [not_quoted_of_operatorOf? hop] at hquoted
  cases p with
  | argument => exact .inl h
  | merge _ whole =>
    obtain rfl := List.mem_singleton.mp h
    exact (hnot whole).elim
  | glued _ _ _ _ starts _ =>
    obtain rfl := List.mem_singleton.mp h
    exact (hnot starts).elim
  | file _ operand _ _ whole =>
    obtain rfl | hoperand := List.mem_cons.mp h
    · exact (hnot whole).elim
    · exact .inr (congrArg some (List.mem_singleton.mp hoperand).symm)

/-- Arguments are extracted as they are. -/
theorem extractFrom_arguments (r : Redirections) (parts : List Part) :
    extractFrom r (parts.flatMap Part.arguments) = .ok (parts.flatMap Part.arguments, r) := by
  induction parts with
  | nil => rfl
  | cons p parts ih =>
    cases p with
    | argument w plain =>
      have hstep := extractFrom_part r (.argument w plain) (parts.flatMap Part.arguments)
      rw [Part.found, Redirections.followedBy_empty, ih] at hstep
      exact hstep
    | _ => exact ih

/-- Extraction from two lists in a row, the first of which lacks no file. It fails as it does on the
second list alone, and otherwise finds the arguments of both and for each channel the last
redirection; so redirections of different channels may change places. What is left of the first list
holds no operator. It is the list without the operators and their files, so every quoted word is
left but for the files. Of the operators that an unquoted word starts with, the longest one
counts. -/
theorem extract_append (a b : List Word) {args : List Word} {r : Redirections}
    (h : extract a = .ok (args, r)) : (∀ e, extract (a ++ b) = .error e ↔ extract b = .error e) ∧
    (∀ args' r', extract b = .ok (args', r') →
      extract (a ++ b) = .ok (args ++ args', r.followedBy r')) ∧
    (∀ args' r', extract b = .ok (args', r') → r.err = none → r'.out = none →
      extract (b ++ a) = .ok (args' ++ args, r.followedBy r')) ∧
    extract args = .ok (args, {}) ∧
    args.Sublist a ∧
    (∃ parts : List Part, a = parts.flatMap Part.words ∧ args = parts.flatMap Part.arguments ∧
      r = foundIn parts ∧
      ∀ p ∈ parts, ∀ w ∈ p.words, w.quoted = true → w ∈ p.arguments ∨ p.operand? = some w) ∧
    ∀ w, w.quoted = false → ∀ o, operatorOf? w = some o ↔
      o ∈ operators ∧ o.spelling.toList <+: w.text.toList ∧
        ∀ o' ∈ operators, o'.spelling.toList <+: w.text.toList →
          o'.spelling.length ≤ o.spelling.length := by
  obtain ⟨parts, rfl, rfl, rfl⟩ := (extract_eq_ok_iff a args r).mp h
  have hboth (parts parts' : List Part) :
      extract (parts.flatMap Part.words ++ parts'.flatMap Part.words) =
        .ok (parts.flatMap Part.arguments ++ parts'.flatMap Part.arguments,
          (foundIn parts).followedBy (foundIn parts')) := by
    rw [← List.flatMap_append, ← List.flatMap_append, ← foundIn_append]
    exact extract_parts (parts ++ parts')
  refine ⟨fun e => ?_, ?_, ?_, extractFrom_arguments {} parts, arguments_sublist parts,
    ⟨parts, rfl, rfl, rfl, fun p _ w hw hquoted => Part.quoted_cases hw hquoted⟩,
    fun w hw o => operatorOf?_eq_some_iff hw o⟩
  · obtain ⟨parts', rfl | ⟨w, hw, rfl⟩⟩ := exists_parts b
    · rw [hboth, extract_parts]
      simp
    · rw [← List.append_assoc, ← List.flatMap_append, extract_lacking _ hw, extract_lacking _ hw]
  · intro args' r' hb
    obtain ⟨parts', rfl, rfl, rfl⟩ := (extract_eq_ok_iff b args' r').mp hb
    exact hboth parts parts'
  · intro args' r' hb herr hout
    obtain ⟨parts', rfl, rfl, rfl⟩ := (extract_eq_ok_iff b args' r').mp hb
    rw [hboth, Redirections.followedBy_comm herr hout]

/-- An operator takes another one for its file, and the merging operator with something glued on is
an argument; of the files of the errors the later one counts. -/
theorem extract_append_greedy :
    let a : List Word := [.bare ">", .bare "2>&1", .bare "2>&1x", ⟨">", true⟩, .bare "2>f"]
    let b : List Word := [.bare "2>>", ⟨"g", true⟩, .bare "x"]
    extract a = .ok ([.bare "2>&1x", ⟨">", true⟩],
        { out := some ⟨.truncate, "2>&1"⟩, err := some (.file ⟨.truncate, "f"⟩) }) ∧
      extract (a ++ b) = .ok ([.bare "2>&1x", ⟨">", true⟩, .bare "x"],
        { out := some ⟨.truncate, "2>&1"⟩, err := some (.file ⟨.append, "g"⟩) }) := by
  intro a b
  have ha : extract a = .ok ([.bare "2>&1x", ⟨">", true⟩],
      { out := some ⟨.truncate, "2>&1"⟩, err := some (.file ⟨.truncate, "f"⟩) }) := by
        decide +kernel
  have hb : extract b = .ok ([.bare "x"], { err := some (.file ⟨.append, "g"⟩) }) := by
    decide +kernel
  exact ⟨ha, (extract_append a b ha).2.1 _ _ hb⟩

/-! ## Failing -/

/-- The operators that take a file. -/
def fileSpellings : List String := [">", ">>", "1>", "1>>", "2>", "2>>"]

/-- An operator that takes a file and has none glued on. -/
def isBare (w : Word) : Bool := !w.quoted && fileSpellings.contains w.text

/-- The operators without a file at the end of a list of words: its longest end of nothing else. -/
def bareRun (words : List Word) : List Word := words.rtakeWhile isBare

theorem isBare_iff (w : Word) : isBare w = true ↔ AwaitsFile w := by
  constructor
  · obtain ⟨text, quoted⟩ := w
    simp only [isBare, fileSpellings, Bool.and_eq_true, Bool.not_eq_true', List.contains_iff_mem,
      List.mem_cons, List.not_mem_nil, or_false]
    rintro ⟨rfl, rfl | rfl | rfl | rfl | rfl | rfl⟩
    · exact ⟨.out, .truncate, by decide⟩
    · exact ⟨.out, .append, by decide⟩
    · exact ⟨.out, .truncate, by decide⟩
    · exact ⟨.out, .append, by decide⟩
    · exact ⟨.err, .truncate, by decide⟩
    · exact ⟨.err, .append, by decide⟩
  · rintro ⟨channel, mode, h⟩
    have hall : ∀ o ∈ operators, o.effect ≠ .merge → fileSpellings.contains o.spelling = true := by
      decide
    have htext := hall _ (longest_of_operatorOf? h).1 nofun
    rw [isBare, not_quoted_of_operatorOf? h, htext]
    rfl

theorem isBare_eq_false {w : Word} (h : ¬ AwaitsFile w) : ¬ isBare w = true := by
  rwa [isBare_iff]

/-- Behind parts an even number of operators stands without a file: each takes the next one for its
file. -/
theorem even_bareRun (parts : List Part) : Even (bareRun (parts.flatMap Part.words)).length := by
  induction parts using List.reverseRecOn with
  | nil => simp [bareRun]
  | append_singleton parts p ih =>
    have hlast {w : Word} (h : ¬ AwaitsFile w) :
        Even (bareRun (parts.flatMap Part.words ++ [w])).length := by
      simp [bareRun, List.rtakeWhile_concat_neg _ _ _ (isBare_eq_false h)]
    rw [List.flatMap_append, List.flatMap_singleton]
    cases p with
    | argument w plain =>
      apply hlast
      rintro ⟨channel, mode, h⟩
      cases (plain _ h).1
    | merge w whole =>
      apply hlast
      rintro ⟨channel, mode, h⟩
      simp [whole] at h
    | glued w spelling channel mode starts more =>
      apply hlast
      rintro ⟨channel', mode', h⟩
      simp [starts, more.symm] at h
    | file w operand channel mode whole =>
      have hw : isBare w = true := (isBare_iff w).mpr ⟨channel, mode, whole⟩
      rw [Part.words, List.append_cons]
      unfold bareRun at ih ⊢
      by_cases hoperand : isBare operand = true
      · rw [List.rtakeWhile_concat_pos _ _ _ hoperand, List.rtakeWhile_concat_pos _ _ _ hw]
        simpa [Nat.even_add_one] using ih
      · rw [List.rtakeWhile_concat_neg _ _ _ hoperand]
        simp

/-- Extraction fails just if an odd number of operators stands at the end without a file, and what
is reported is the last word. -/
theorem extract_fails_iff (words : List Word) :
    ((∃ e, extract words = .error e) ↔ Odd (bareRun words).length) ∧
    ∀ e, extract words = .error e → ∃ w, words.getLast? = some w ∧
      e.message = "syntax error: missing file operand after '" ++ w.text ++ "'" := by
  obtain ⟨parts, rfl | ⟨w, hw, rfl⟩⟩ := exists_parts words
  · rw [extract_parts]
    simpa using even_bareRun parts
  · have hodd : Odd (bareRun (parts.flatMap Part.words ++ [w])).length := by
      rw [bareRun, List.rtakeWhile_concat_pos _ _ _ ((isBare_iff w).mpr hw), List.length_append]
      exact (even_bareRun parts).add_one
    rw [extract_lacking parts hw]
    refine ⟨iff_of_true ⟨_, rfl⟩ hodd, ?_⟩
    rintro e ⟨⟩
    exact ⟨w, by simp, rfl⟩

/-- Operators take each other for their files in turn. -/
example : extract [.bare "x", .bare ">", .bare "2>"] =
    .ok ([.bare "x"], { out := some ⟨.truncate, "2>"⟩ }) := by
  decide

end Redirection

end CommandShell
