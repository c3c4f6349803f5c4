import CommandShell.Proofs.Text.Trimming
import CommandShell.Text.Integer

/-!
# What stands for an integer

The texts that stand for an integer are described without the reader: digits of any script with
single underscores between them, a sign or none in front, white space around, and not too many
digits. These texts are the ones that are read, and the decimal text of an integer is one of them.

## Main definitions

* `Text.Spells`: digits and their values.
* `Text.Denotes`: a text that stands for an integer.

## Main statements

* `Text.integer?_eq_some_iff`: a text is read as the integer that it stands for.
* `Text.integer?_eq_none_iff`: a text that stands for none is refused.
* `Text.denotes_toString`: an integer that is written in decimal.
-/

namespace CommandShell.Text

/-- Digits of any script, with single underscores allowed between them, and their values. -/
inductive Spells : List Char → List Nat → Prop where
  | last {c : Char} {d : Nat} (value : digitValue? c = some d) : Spells [c] [d]
  | next {c : Char} {d : Nat} {cs : List Char} {ds : List Nat} (value : digitValue? c = some d)
      (later : Spells cs ds) : Spells (c :: cs) (d :: ds)
  | gap {c : Char} {d : Nat} {cs : List Char} {ds : List Nat} (value : digitValue? c = some d)
      (later : Spells cs ds) : Spells (c :: '_' :: cs) (d :: ds)

/-- The number that digits make, the first of them being the highest. -/
def numberOf (ds : List Nat) : Nat := ds.foldl (fun n d => 10 * n + d) 0

theorem valueOfDigits_reverse (ds : List Nat) : valueOfDigits ds.reverse = numberOf ds :=
  List.foldr_reverse

/-- A digit is neither white space nor an underscore nor a sign. -/
theorem plain_of_digitValue? {c : Char} {d : Nat} (h : digitValue? c = some d) :
    isNumeralSpace c = false ∧ c ≠ '_' ∧ c ≠ '-' ∧ c ≠ '+' := by
  obtain ⟨z, hfound, rfl⟩ := Option.map_eq_some_iff.mp h
  have hrange := List.find?_some hfound
  simp only [Bool.and_eq_true, decide_eq_true_eq] at hrange
  have hall : ∀ z ∈ digitZeros, ∀ d < 10, let c := Char.ofNat (z + d)
      isNumeralSpace c = false ∧ c ≠ '_' ∧ c ≠ '-' ∧ c ≠ '+' := by decide +kernel
  have hc := hall z (List.mem_of_find?_eq_some hfound) (c.toNat - z) (by omega)
  have hsum : z + (c.toNat - z) = c.toNat := by omega
  simpa only [hsum, Char.ofNat_toNat] using hc

/-- What may stand behind a digit: nothing, more digits, or an underscore and more digits. -/
def Continues (cs : List Char) (ds : List Nat) : Prop :=
  (cs = [] ∧ ds = []) ∨ Spells cs ds ∨ ∃ rest, cs = '_' :: rest ∧ Spells rest ds

theorem spells_cons_iff {c : Char} {cs : List Char} {ds : List Nat} :
    Spells (c :: cs) ds ↔ ∃ d rest, digitValue? c = some d ∧ ds = d :: rest ∧
      Continues cs rest := by
  constructor
  · intro h
    cases h with
    | last value => exact ⟨_, [], value, rfl, .inl ⟨rfl, rfl⟩⟩
    | next value later => exact ⟨_, _, value, rfl, .inr (.inl later)⟩
    | gap value later => exact ⟨_, _, value, rfl, .inr (.inr ⟨_, rfl, later⟩)⟩
  · rintro ⟨d, rest, value, rfl, ⟨rfl, rfl⟩ | later | ⟨cs, rfl, later⟩⟩
    · exact .last value
    · exact .next value later
    · exact .gap value later

theorem digitsFrom_true_cons (seen : List Nat) (c : Char) (cs : List Char) :
    digitsFrom true seen (c :: cs) = (digitValue? c).bind fun d =>
      digitsFrom false (d :: seen) cs := by
  have hnone : digitValue? '_' = none := by decide
  rw [digitsFrom]
  split
  · next hc => simp [hc, hnone]
  · rfl

theorem digitsFrom_false_cons (seen : List Nat) (c : Char) (cs : List Char) :
    digitsFrom false seen (c :: cs) = if c = '_' then digitsFrom true seen cs
      else digitsFrom true seen (c :: cs) := by
  rw [digitsFrom_true_cons, digitsFrom]
  rfl

/-- Where a digit has to stand, digits are read that are spelled there, and behind a digit those
that it goes on with. -/
theorem digitsFrom_eq_some_iff (cs : List Char) (seen read : List Nat) :
    (digitsFrom true seen cs = some read ↔ ∃ ds, Spells cs ds ∧ read = ds.reverse ++ seen) ∧
    (digitsFrom false seen cs = some read ↔ ∃ ds, Continues cs ds ∧ read = ds.reverse ++ seen) := by
  induction cs generalizing seen with
  | nil =>
    have hnone (ds : List Nat) : ¬ Spells [] ds := by rintro ⟨⟩
    simp [digitsFrom, Continues, hnone, eq_comm]
  | cons c cs ih =>
    have hfirst : digitsFrom true seen (c :: cs) = some read ↔
        ∃ ds, Spells (c :: cs) ds ∧ read = ds.reverse ++ seen := by
      rw [digitsFrom_true_cons, Option.bind_eq_some_iff]
      constructor
      · rintro ⟨d, value, hrest⟩
        obtain ⟨ds, hds, rfl⟩ := (ih (d :: seen)).2.mp hrest
        exact ⟨d :: ds, spells_cons_iff.mpr ⟨d, ds, value, rfl, hds⟩, by simp⟩
      · rintro ⟨_, hspells, rfl⟩
        obtain ⟨d, ds, value, rfl, hds⟩ := spells_cons_iff.mp hspells
        exact ⟨d, value, (ih (d :: seen)).2.mpr ⟨ds, hds, by simp⟩⟩
    refine ⟨hfirst, ?_⟩
    rw [digitsFrom_false_cons]
    split
    · next hc =>
      subst hc
      have hnone (ds : List Nat) : ¬ Spells ('_' :: cs) ds := by
        rw [spells_cons_iff]
        rintro ⟨d, rest, value, -⟩
        exact (plain_of_digitValue? value).2.1 rfl
      simp [Continues, hnone, (ih seen).1]
    · next hc => simp [Continues, hc, hfirst]

/-- A numeral without a sign: digits, and not too many of them. -/
def Numeral (cs : List Char) (n : Nat) : Prop :=
  ∃ ds, Spells cs ds ∧ ds.length ≤ maxDigits ∧ numberOf ds = n

/-- A numeral behind a sign or none. -/
inductive Signed : List Char → Int → Prop where
  | none {cs : List Char} {n : Nat} (numeral : Numeral cs n) : Signed cs n
  | plus {cs : List Char} {n : Nat} (numeral : Numeral cs n) : Signed ('+' :: cs) n
  | minus {cs : List Char} {n : Nat} (numeral : Numeral cs n) : Signed ('-' :: cs) (-n)

/-- A text that stands for an integer: a numeral with white space around it. -/
def Denotes (text : String) (i : Int) : Prop :=
  ∃ before cs after, text.toList = before ++ cs ++ after ∧ Signed cs i ∧
    (∀ c ∈ before, isNumeralSpace c = true) ∧ ∀ c ∈ after, isNumeralSpace c = true

theorem natural?_eq_some_iff {cs : List Char} {n : Nat} : natural? cs = some n ↔ Numeral cs n := by
  unfold natural? Numeral
  rw [Option.bind_eq_some_iff]
  constructor
  · rintro ⟨read, hread, hn⟩
    obtain ⟨ds, hspells, rfl⟩ := (digitsFrom_eq_some_iff cs [] read).1.mp hread
    rw [List.append_nil, List.length_reverse] at hn
    split at hn
    · next hshort => exact ⟨ds, hspells, hshort, valueOfDigits_reverse ds ▸ Option.some.inj hn⟩
    · cases hn
  · rintro ⟨ds, hspells, hshort, rfl⟩
    refine ⟨ds.reverse, (digitsFrom_eq_some_iff cs [] _).1.mpr ⟨ds, hspells, by simp⟩, ?_⟩
    rw [List.length_reverse, if_pos hshort, valueOfDigits_reverse]

/-- Digits begin with a digit. -/
theorem Spells.exists_cons {cs : List Char} {ds : List Nat} (h : Spells cs ds) :
    ∃ c rest d, cs = c :: rest ∧ digitValue? c = some d := by
  cases h with
  | last value | next value _ | gap value _ => exact ⟨_, _, _, rfl, value⟩

/-- And they end with one. -/
theorem Spells.exists_snoc {cs : List Char} {ds : List Nat} (h : Spells cs ds) :
    ∃ front c d, cs = front ++ [c] ∧ digitValue? c = some d := by
  induction h with
  | @last c d value => exact ⟨[], c, d, rfl, value⟩
  | @next c d cs ds value later ih =>
    obtain ⟨front, e, d, rfl, he⟩ := ih
    exact ⟨c :: front, e, d, rfl, he⟩
  | @gap c d cs ds value later ih =>
    obtain ⟨front, e, d, rfl, he⟩ := ih
    exact ⟨c :: '_' :: front, e, d, rfl, he⟩

/-- A numeral and its sign begin and end with what is no white space. -/
theorem trimmed_of_signed {cs : List Char} {i : Int} (h : Signed cs i) :
    trimmed isNumeralSpace cs = cs := by
  have hlast {digits : List Char} {n : Nat} (numeral : Numeral digits n) :
      ∃ front c, digits = front ++ [c] ∧ isNumeralSpace c = false := by
    obtain ⟨ds, hspells, -⟩ := numeral
    obtain ⟨front, c, d, hdigits, value⟩ := hspells.exists_snoc
    exact ⟨front, c, hdigits, (plain_of_digitValue? value).1⟩
  cases h with
  | none numeral =>
    obtain ⟨front, e, hend, he⟩ := hlast numeral
    obtain ⟨ds, hspells, -⟩ := numeral
    obtain ⟨c, rest, d, hbegin, value⟩ := hspells.exists_cons
    refine trimmed_eq_self ?_ ?_
    · simpa [hbegin] using (plain_of_digitValue? value).1
    · simpa [hend] using he
  | plus numeral | minus numeral =>
    obtain ⟨front, e, rfl, he⟩ := hlast numeral
    refine trimmed_eq_self ?_ ?_
    · simpa using by decide
    · simpa [List.getLast?_cons] using he

/-- Read a sign and a numeral. -/
def signed? : List Char → Option Int
  | '-' :: rest => (natural? rest).map fun n : Nat => -(n : Int)
  | '+' :: rest => (natural? rest).map Int.ofNat
  | cs => (natural? cs).map Int.ofNat

theorem signed?_eq_some_iff {cs : List Char} {i : Int} : signed? cs = some i ↔ Signed cs i := by
  constructor
  · intro h
    unfold signed? at h
    split at h
    all_goals
      obtain ⟨n, hn, rfl⟩ := Option.map_eq_some_iff.mp h
      have numeral := natural?_eq_some_iff.mp hn
    · exact .minus numeral
    · exact .plus numeral
    · exact .none numeral
  · intro h
    cases h with
    | none numeral =>
      have hn := natural?_eq_some_iff.mpr numeral
      obtain ⟨ds, hspells, -⟩ := numeral
      obtain ⟨c, rest, d, rfl, value⟩ := hspells.exists_cons
      obtain ⟨-, -, hminus, hplus⟩ := plain_of_digitValue? value
      simp [signed?, hminus, hplus, hn]
    | plus numeral => simp [signed?, natural?_eq_some_iff.mpr numeral]
    | minus numeral => simp [signed?, natural?_eq_some_iff.mpr numeral]

theorem integer?_eq_signed? (text : String) :
    integer? text = signed? (trimmed isNumeralSpace text.toList) := by
  have hminus (rest : List Char) : (Option.map (fun n : Int => -n) do
      let n ← natural? rest
      pure (n : Int)) = (natural? rest).map fun n : Nat => -(n : Int) := by
    cases natural? rest <;> rfl
  simp only [integer?, hminus]
  rfl

/-- A text is read as the integer that it stands for. -/
theorem integer?_eq_some_iff {text : String} {i : Int} : integer? text = some i ↔
    Denotes text i := by
  rw [integer?_eq_signed?, signed?_eq_some_iff]
  constructor
  · intro hsigned
    obtain ⟨before, after, hparts, hbefore, hafter⟩ := exists_trimmed isNumeralSpace text.toList
    exact ⟨before, _, after, hparts, hsigned, hbefore, hafter⟩
  · rintro ⟨before, cs, after, hparts, hsigned, hbefore, hafter⟩
    rwa [hparts, List.append_assoc, trimmed_around hbefore hafter, trimmed_of_signed hsigned]

/-- A text that stands for no integer is refused. -/
theorem integer?_eq_none_iff {text : String} : integer? text = none ↔ ∀ i, ¬ Denotes text i := by
  simp only [← integer?_eq_some_iff, Option.eq_none_iff_forall_ne_some, ne_eq]

/-- Decimal digits are read as digits. -/
theorem digitValue?_of_isDigit {c : Char} (h : c.isDigit = true) :
    digitValue? c = some (c.toNat - 48) := by
  have hrange : 48 ≤ c.toNat ∧ c.toNat ≤ 57 := by
    simpa [Char.isDigit, UInt32.le_iff_toNat_le] using h
  have hzero : (digitZeros.find? fun z => z ≤ c.toNat && c.toNat ≤ z + 9) = some 0x30 :=
    List.find?_cons_of_pos (by simpa using ⟨hrange.1, by omega⟩)
  simp [digitValue?, hzero]

theorem spells_of_isDigit {cs : List Char} (hne : cs ≠ []) (h : ∀ c ∈ cs, c.isDigit = true) :
    Spells cs (cs.map fun c => c.toNat - 48) := by
  induction cs with
  | nil => exact absurd rfl hne
  | cons c cs ih =>
    have hc := digitValue?_of_isDigit (h c List.mem_cons_self)
    cases cs with
    | nil => exact .last hc
    | cons e cs => exact .next hc (ih (by simp) fun c hc => h c (List.mem_cons_of_mem _ hc))

theorem numberOf_map (cs : List Char) :
    numberOf (cs.map fun c => c.toNat - 48) = Nat.ofDigitChars 10 cs 0 := by
  rw [numberOf, List.foldl_map]
  rfl

/-- The digits of a number in decimal are read as the number. -/
theorem numeral_toDigits {n : Nat} (h : (Nat.toDigits 10 n).length ≤ maxDigits) :
    Numeral (Nat.toDigits 10 n) n := by
  have hdigits : ∀ c ∈ Nat.toDigits 10 n, c.isDigit = true := by
    intro c hc
    exact Nat.isDigit_of_mem_toDigits (by decide) (by decide) hc
  refine ⟨_, spells_of_isDigit Nat.toDigits_ne_nil hdigits, ?_, ?_⟩
  · rwa [List.length_map]
  · rw [numberOf_map, Nat.ofDigitChars_ten_toDigits]

/-- A negative integer in decimal is a minus sign and digits. -/
theorem toList_toString_of_neg {i : Int} (h : i < 0) :
    (toString i).toList = '-' :: Nat.toDigits 10 i.natAbs := by
  have hnat : (-i).toNat = i.natAbs := by omega
  rw [Int.toString_eq_repr, Int.repr_eq_if, if_neg (by omega), String.toList_append,
    Nat.toList_repr, hnat]
  rfl

/-- An integer in decimal is read as itself if it does not have too many digits. -/
theorem denotes_toString {i : Int} (h : (toString i.natAbs).length ≤ maxDigits) :
    Denotes (toString i) i := by
  have hdigits : (Nat.toDigits 10 i.natAbs).length ≤ maxDigits := by
    rwa [Nat.toString_eq_repr, ← String.length_toList, Nat.toList_repr] at h
  have numeral := numeral_toDigits hdigits
  refine ⟨[], (toString i).toList, [], by simp, ?_, by simp, by simp⟩
  by_cases hsign : 0 ≤ i
  · have hnat : i.toNat = i.natAbs := by omega
    have hvalue : (i.natAbs : Int) = i := by omega
    have hsigned := Signed.none numeral
    rwa [Int.toString_eq_repr, Int.repr_eq_if, if_pos hsign, Nat.toList_repr, hnat, ← hvalue]
  · have hvalue : -(i.natAbs : Int) = i := by omega
    have hsigned := Signed.minus numeral
    rwa [hvalue, ← toList_toString_of_neg (by omega)] at hsigned

/-- With a minus sign in front no text stands for a positive integer. -/
theorem Denotes.nonpos {text : String} {i : Int} {rest : List Char} (h : Denotes text i)
    (hminus : text.toList = '-' :: rest) : i ≤ 0 := by
  obtain ⟨before, cs, after, hparts, hsigned, hbefore, -⟩ := h
  rw [hparts] at hminus
  cases before with
  | cons c before =>
    obtain ⟨rfl, -⟩ : c = '-' ∧ _ := by simpa using hminus
    exact absurd (hbefore '-' List.mem_cons_self) (by decide)
  | nil =>
    cases hsigned with
    | none numeral =>
      obtain ⟨ds, hspells, -⟩ := numeral
      obtain ⟨c, rest, d, rfl, value⟩ := hspells.exists_cons
      obtain ⟨rfl, -⟩ : c = '-' ∧ _ := by simpa using hminus
      exact absurd rfl (plain_of_digitValue? value).2.2.1
    | plus numeral => simp at hminus
    | minus numeral => omega

end CommandShell.Text
