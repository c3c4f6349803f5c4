import CommandShell.Text.CodeUnits

/-!
# Texts as code units

A character is no half of a pair, so the units of a text are read as the characters of the text.
Halves that stand alone are read as they are, but two of them that make a pair are read as one
character.

## Main statements

- `CodeUnits.letters_ofChar_append`: the units of a character are read as that character.
- `CodeUnits.text_ofString`: the units of a text are read as the text.
- `CodeUnits.letters_ofLetters_iff`: the letters that are read from their units as they are.
-/

namespace CommandShell.CodeUnits

theorem toNat_toUInt16 {n : Nat} (h : n < 65536) : n.toUInt16.toNat = n := by
  simp only [Nat.toUInt16, UInt16.toNat_ofNat']
  omega

theorem isHigh_toUInt16 {n : Nat} (h : n < 65536) :
    isHigh n.toUInt16 = (0xD800 ≤ n && n ≤ 0xDBFF) := by
  simp [isHigh, UInt16.le_iff_toNat_le, toNat_toUInt16 h]

theorem isLow_toUInt16 {n : Nat} (h : n < 65536) :
    isLow n.toUInt16 = (0xDC00 ≤ n && n ≤ 0xDFFF) := by
  simp [isLow, UInt16.le_iff_toNat_le, toNat_toUInt16 h]

/-- A unit that is half of no pair is a character. -/
theorem letters_cons_of_whole {u : UInt16} (hhigh : isHigh u = false) (hlow : isLow u = false)
    (rest : CodeUnits) : letters (u :: rest) = .char (Char.ofNat u.toNat) :: letters rest := by
  cases rest with
  | nil => simp [letters, hhigh, hlow]
  | cons v rest => simp [letters, hhigh, hlow]

/-- A high unit before a low one is one character. -/
theorem letters_pair {high low : Nat} (hhigh : high < 0x400) (hlow : low < 0x400)
    (rest : CodeUnits) : letters ((0xD800 + high).toUInt16 :: (0xDC00 + low).toUInt16 :: rest) =
      .char (Char.ofNat (0x10000 + high * 0x400 + low)) :: letters rest := by
  have hupper : 0xD800 + high < 65536 := by omega
  have hlower : 0xDC00 + low < 65536 := by omega
  have hfirst : isHigh (0xD800 + high).toUInt16 = true := by
    rw [isHigh_toUInt16 hupper, Bool.and_eq_true, decide_eq_true_iff, decide_eq_true_iff]
    omega
  have hsecond : isLow (0xDC00 + low).toUInt16 = true := by
    rw [isLow_toUInt16 hlower, Bool.and_eq_true, decide_eq_true_iff, decide_eq_true_iff]
    omega
  have hjoin : join (0xD800 + high).toUInt16 (0xDC00 + low).toUInt16 =
      Char.ofNat (0x10000 + high * 0x400 + low) := by
    rw [join, toNat_toUInt16 hupper, toNat_toUInt16 hlower, Nat.add_sub_cancel_left,
      Nat.add_sub_cancel_left]
  rw [letters, hfirst, hsecond, hjoin]
  rfl

/-- The units of a character are read as that character. -/
theorem letters_ofChar_append (c : Char) (rest : CodeUnits) :
    letters (ofChar c ++ rest) = .char c :: letters rest := by
  have hvalid : c.toNat < 0xD800 ∨ 0xDFFF < c.toNat ∧ c.toNat < 0x110000 := c.valid
  have hchar : Char.ofNat c.toNat = c := Char.ofNat_toNat c
  unfold ofChar
  generalize c.toNat = n at hvalid hchar
  dsimp only
  by_cases hn : n < 0x10000
  · have hhigh : isHigh n.toUInt16 = false := by
      rw [isHigh_toUInt16 hn, Bool.and_eq_false_iff, decide_eq_false_iff_not,
        decide_eq_false_iff_not]
      omega
    have hlow : isLow n.toUInt16 = false := by
      rw [isLow_toUInt16 hn, Bool.and_eq_false_iff, decide_eq_false_iff_not,
        decide_eq_false_iff_not]
      omega
    rw [if_pos hn, List.singleton_append, letters_cons_of_whole hhigh hlow,
      toNat_toUInt16 hn, hchar]
  · -- The last ten bits make the low unit, and the ten bits above them the high one.
    have hhigh : (n - 0x10000) / 0x400 < 0x400 := by omega
    have hlow : (n - 0x10000) % 0x400 < 0x400 := by omega
    have hn' : 0x10000 + (n - 0x10000) / 0x400 * 0x400 + (n - 0x10000) % 0x400 = n := by omega
    rw [if_neg hn, List.cons_append, List.singleton_append, letters_pair hhigh hlow, hn', hchar]

/-- The units of a text are read as the text. -/
theorem text_ofString (s : String) : (ofString s).text = s := by
  have hletters (chars : List Char) : letters (chars.flatMap ofChar) = chars.map Letter.char := by
    induction chars with
    | nil => rfl
    | cons c rest ih => rw [List.flatMap_cons, letters_ofChar_append, ih, List.map_cons]
  have hchars (chars : List Char) : (chars.map Letter.char).map Letter.toChar = chars := by
    induction chars with
    | nil => rfl
    | cons c rest ih => exact congrArg (c :: ·) ih
  rw [text, ofString, hletters, hchars, String.ofList_toList]

/-- The units of a letter. -/
def ofLetter : Letter → CodeUnits
  | .char c => ofChar c
  | .half u => [u]

/-- The units of letters. -/
def ofLetters (ls : List Letter) : CodeUnits := ls.flatMap ofLetter

/-- What is called half of a pair is one. -/
def Letter.IsSound : Letter → Prop
  | .char _ => True
  | .half u => isHigh u = true ∨ isLow u = true

/-- Whether a high half stands right before a low one. -/
def meets : List Letter → Bool
  | .half u :: .half v :: rest => isHigh u && isLow v || meets (.half v :: rest)
  | _ :: rest => meets rest
  | [] => false

/-- Half of a pair stands alone if no other half follows. -/
theorem letters_cons_of_half {u : UInt16} (hu : isHigh u = true ∨ isLow u = true) {rest : CodeUnits}
    (hrest : isHigh u = true → ∀ v, rest.head? = some v → isLow v = false) :
    letters (u :: rest) = .half u :: letters rest := by
  have hhalf : (isHigh u || isLow u) = true := by simpa using hu
  cases rest with
  | nil => simp [letters, hhalf]
  | cons v rest =>
    have hpair : (isHigh u && isLow v) = false := by
      cases hhigh : isHigh u
      · rfl
      · simpa using hrest hhigh v rfl
    simp [letters, hhalf, hpair]

/-- No character begins with the lower half of a pair. -/
theorem isLow_of_head?_ofChar {c : Char} {rest : CodeUnits} {u : UInt16}
    (h : (ofChar c ++ rest).head? = some u) : isLow u = false := by
  have hvalid : c.toNat < 0xD800 ∨ 0xDFFF < c.toNat ∧ c.toNat < 0x110000 := c.valid
  unfold ofChar at h
  generalize c.toNat = n at hvalid h
  dsimp only at h
  split at h
  · next hn =>
    obtain rfl : n.toUInt16 = u := by simpa using h
    rw [isLow_toUInt16 hn, Bool.and_eq_false_iff, decide_eq_false_iff_not, decide_eq_false_iff_not]
    omega
  · obtain rfl : (0xD800 + (n - 0x10000) / 0x400).toUInt16 = u := by simpa using h
    rw [isLow_toUInt16 (by omega), Bool.and_eq_false_iff, decide_eq_false_iff_not,
      decide_eq_false_iff_not]
    omega

/-- Letters are read from their units as they are unless two of them make a pair. -/
theorem letters_ofLetters_iff {ls : List Letter} (h : ∀ l ∈ ls, l.IsSound) :
    letters (ofLetters ls) = ls ↔ meets ls = false := by
  fun_induction meets ls with
  | case1 u v rest ih =>
    have hu : isHigh u = true ∨ isLow u = true := h (.half u) (by simp)
    have hunits : ofLetters (.half u :: .half v :: rest) = u :: v :: ofLetters rest := rfl
    cases hpair : isHigh u && isLow v
    · have hrest : letters (ofLetters (.half u :: .half v :: rest)) =
          .half u :: letters (ofLetters (.half v :: rest)) := by
        refine letters_cons_of_half hu fun hhigh w hw => ?_
        obtain rfl : v = w := by simpa [ofLetters, ofLetter] using hw
        simpa [hhigh] using hpair
      rw [hrest, List.cons_inj_right, ih fun l hl => h l (by simp [hl])]
      simp
    · rw [hunits, letters, if_pos hpair]
      simp
  | case2 l rest hother ih =>
    have ih := ih fun l hl => h l (by simp [hl])
    cases l with
    | char c =>
      have hunits : ofLetters (.char c :: rest) = ofChar c ++ ofLetters rest := rfl
      rw [hunits, letters_ofChar_append, List.cons_inj_right, ih]
    | half u =>
      have hrest : letters (ofLetters (.half u :: rest)) = .half u :: letters (ofLetters rest) := by
        refine letters_cons_of_half (h (.half u) (by simp)) fun _ w hw => ?_
        -- what follows is a character, if anything does
        cases rest with
        | nil => simp at hw
        | cons next rest =>
          cases next with
          | half v => exact absurd rfl (hother u v rest rfl)
          | char c => exact @isLow_of_head?_ofChar c (ofLetters rest) _ hw
      rw [hrest, List.cons_inj_right, ih]
  | case3 => simp [ofLetters, letters]

end CommandShell.CodeUnits
