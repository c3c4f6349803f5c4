import CommandShell.Text.Utf8

/-!
# Encoding and decoding

A text that is encoded is decoded to itself, since the decoder is back where it began after the
bytes of each character.

## Main statements

- `Utf8.feedOnto_encodeChar`: the bytes of a character complete it.
- `Utf8.decode_encode`: decoding undoes encoding.
- `Utf8.feed_append`: the text that bytes complete does not depend on the chunks in which they come.
- `Utf8.decode_eq_feed`: decoding replaces what is left at the end.
- `Utf8.decode_append_encode`: a text is decoded to itself whatever bytes come before.
-/

namespace CommandShell.Utf8

theorem toNat_ofNat {n : Nat} (h : n.isValidChar) : (Char.ofNat n).toNat = n := by
  rw [Char.ofNat, dif_pos h]
  rfl

theorem toNat_toUInt8 {n : Nat} (h : n < 256) : n.toUInt8.toNat = n := by
  simp only [Nat.toUInt8, UInt8.toNat_ofNat']
  omega

/-- The byte that is missing last completes a character. -/
theorem step_last (value low high n : Nat) (hn : n < 256) (hlow : low ≤ n) (hhigh : n ≤ high) :
    step (.need 0 value low high) n.toUInt8 =
      ([Char.ofNat (value * 0x40 + (n - 0x80))], .none) := by
  simp [step, toNat_toUInt8 hn, hlow, hhigh]

/-- After a byte that continues a character one less is missing. -/
theorem step_more (missing value low high n : Nat) (hn : n < 256) (hlow : low ≤ n)
    (hhigh : n ≤ high) : step (.need (missing + 1) value low high) n.toUInt8 =
      ([], .need missing (value * 0x40 + (n - 0x80)) 0x80 0xBF) := by
  simp [step, toNat_toUInt8 hn, hlow, hhigh]

/-- The first byte of two. -/
theorem start_two {m : Nat} (hlow : 2 ≤ m) (hhigh : m < 0x20) :
    start (0xC0 + m).toUInt8 = ([], .need 0 m 0x80 0xBF) := by
  have hb : (0xC0 + m).toUInt8.toNat = 0xC0 + m := toNat_toUInt8 (by omega)
  simp only [start, hb]
  rw [if_neg (by omega), if_neg (by omega), if_pos (by omega), Nat.add_sub_cancel_left]

/-- The first byte of three. -/
theorem start_three {m : Nat} (hm : m < 0x10) :
    start (0xE0 + m).toUInt8 =
      ([], .need 1 m (if m = 0 then 0xA0 else 0x80) (if m = 0xD then 0x9F else 0xBF)) := by
  have hb : (0xE0 + m).toUInt8.toNat = 0xE0 + m := toNat_toUInt8 (by omega)
  have hlow : (0xE0 + m = 0xE0) = (m = 0) := by simp
  have hhigh : (0xE0 + m = 0xED) = (m = 0xD) := propext (by omega)
  simp only [start, hb, hlow, hhigh]
  rw [if_neg (by omega), if_neg (by omega), if_neg (by omega), if_pos (by omega),
    Nat.add_sub_cancel_left]

/-- The first byte of four. -/
theorem start_four {m : Nat} (hm : m < 5) :
    start (0xF0 + m).toUInt8 =
      ([], .need 2 m (if m = 0 then 0x90 else 0x80) (if m = 4 then 0x8F else 0xBF)) := by
  have hb : (0xF0 + m).toUInt8.toNat = 0xF0 + m := toNat_toUInt8 (by omega)
  have hlow : (0xF0 + m = 0xF0) = (m = 0) := by simp
  have hhigh : (0xF0 + m = 0xF4) = (m = 4) := propext (by omega)
  simp only [start, hb, hlow, hhigh]
  rw [if_neg (by omega), if_neg (by omega), if_neg (by omega), if_neg (by omega), if_pos (by omega),
    Nat.add_sub_cancel_left]

theorem step_none (b : UInt8) : step .none b = start b := rfl

/-- The bytes of a character complete it. -/
theorem feedOnto_encodeChar (cs : List Char) (c : Char) :
    feedOnto (cs, .none) (encodeChar c) = (c :: cs, .none) := by
  have hvalid : c.toNat < 0xD800 ∨ 0xDFFF < c.toNat ∧ c.toNat < 0x110000 := c.valid
  have hchar : Char.ofNat c.toNat = c := Char.ofNat_toNat c
  unfold encodeChar
  generalize c.toNat = n at hvalid hchar
  dsimp only
  split
  · next h1 =>
    simp [feedOnto, advance, step_none, start, toNat_toUInt8 (show n < 256 by omega), h1, hchar]
  · split
    · next h1 h2 =>
      have hstart := start_two (m := n / 0x40) (by omega) (by omega)
      have hlast :=
        step_last (n / 0x40) 0x80 0xBF (0x80 + n % 0x40) (by omega) (by omega) (by omega)
      rw [show n / 0x40 * 0x40 + (0x80 + n % 0x40 - 0x80) = n by omega, hchar] at hlast
      simp only [feedOnto, List.foldl_cons, List.foldl_nil, advance, step_none, hstart, hlast]
      rfl
    · split
      · next h1 h2 h3 =>
        have hstart := start_three (m := n / 0x1000) (by omega)
        -- the range of the second byte leaves out what has fewer bytes and the surrogates
        have hmore := step_more 0 (n / 0x1000) (if n / 0x1000 = 0 then 0xA0 else 0x80)
          (if n / 0x1000 = 0xD then 0x9F else 0xBF) (0x80 + n / 0x40 % 0x40) (by omega)
          (by split <;> omega) (by split <;> omega)
        rw [show n / 0x1000 * 0x40 + (0x80 + n / 0x40 % 0x40 - 0x80) = n / 0x40 by omega] at hmore
        have hlast :=
          step_last (n / 0x40) 0x80 0xBF (0x80 + n % 0x40) (by omega) (by omega) (by omega)
        rw [show n / 0x40 * 0x40 + (0x80 + n % 0x40 - 0x80) = n by omega, hchar] at hlast
        simp only [feedOnto, List.foldl_cons, List.foldl_nil, advance, step_none, hstart,
          hmore, hlast]
        rfl
      · next h1 h2 h3 =>
        have hstart := start_four (m := n / 0x40000) (by omega)
        have hmore := step_more 1 (n / 0x40000) (if n / 0x40000 = 0 then 0x90 else 0x80)
          (if n / 0x40000 = 4 then 0x8F else 0xBF) (0x80 + n / 0x1000 % 0x40) (by omega)
          (by split <;> omega) (by split <;> omega)
        rw [show n / 0x40000 * 0x40 + (0x80 + n / 0x1000 % 0x40 - 0x80) = n / 0x1000 by omega]
          at hmore
        have hmore' :=
          step_more 0 (n / 0x1000) 0x80 0xBF (0x80 + n / 0x40 % 0x40) (by omega) (by omega)
          (by omega)
        rw [show n / 0x1000 * 0x40 + (0x80 + n / 0x40 % 0x40 - 0x80) = n / 0x40 by omega] at hmore'
        have hlast :=
          step_last (n / 0x40) 0x80 0xBF (0x80 + n % 0x40) (by omega) (by omega) (by omega)
        rw [show n / 0x40 * 0x40 + (0x80 + n % 0x40 - 0x80) = n by omega, hchar] at hlast
        simp only [feedOnto, List.foldl_cons, List.foldl_nil, advance, step_none, hstart,
          hmore, hmore', hlast]
        rfl

/-- The bytes of characters complete them, one after the other. -/
theorem feedOnto_encodeChars (cs seen : List Char) :
    feedOnto (seen, .none) (cs.flatMap encodeChar) = (cs.reverse ++ seen, .none) := by
  induction cs generalizing seen with
  | nil => rfl
  | cons c cs ih => simp [feedOnto_append, feedOnto_encodeChar, ih]

@[simp] theorem decode_encode (s : String) : decode (encode s) = s := by
  simp [decode, encode, feedOnto_encodeChars, finish]

theorem encode_append (s t : String) : encode (s ++ t) = encode s ++ encode t := by
  simp [encode]

theorem feedOnto_eq (cs : List Char) (p : Pending) (bytes : Bytes) :
    feedOnto (cs, p) bytes = ((feedOnto ([], p) bytes).1 ++ cs, (feedOnto ([], p) bytes).2) := by
  induction bytes generalizing cs p with
  | nil => rfl
  | cons b rest ih =>
    have hcons (cs : List Char) :
        feedOnto (cs, p) (b :: rest) = feedOnto ((step p b).1.reverse ++ cs, (step p b).2) rest :=
          rfl
    rw [hcons, hcons, ih, ih ((step p b).1.reverse ++ []), List.append_nil, List.append_assoc]

/-- The text that bytes complete does not depend on the chunks in which they come. -/
theorem feed_append (p : Pending) (a b : Bytes) :
    feed p (a ++ b) = ((feed p a).1 ++ (feed (feed p a).2 b).1, (feed (feed p a).2 b).2) := by
  unfold feed
  rw [feedOnto_append, feedOnto_eq (feedOnto ([], p) a).1]
  simp only [List.reverse_append, String.ofList_append]

/-- Decoding replaces what is left at the end. -/
theorem decode_eq_feed (bytes : Bytes) :
    decode bytes = (feed .none bytes).1 ++ String.ofList (finish (feed .none bytes).2) := by
  simp only [decode, feed, String.ofList_append]

theorem finish_eq_nil {p : Pending} : finish p = [] ↔ p = .none := by
  cases p <;> simp [finish]

/-- The characters that bytes complete are all that they decode to just if they do not break off in
one. -/
theorem feed_eq_decode_iff (bytes : Bytes) :
    (feed .none bytes).1 = decode bytes ↔ (feed .none bytes).2 = .none := by
  rw [decode_eq_feed, ← finish_eq_nil]
  constructor
  · intro h
    simpa using congrArg String.toList h
  · intro h
    rw [h, String.ofList_nil, String.append_empty]

theorem encode_inj {s t : String} : encode s = encode t ↔ s = t := by
  constructor
  · intro h
    simpa [decode_encode] using congrArg decode h
  · exact congrArg encode

/-- A byte that begins a character; the other ones go on with one. -/
def Begins (b : UInt8) : Prop := b.toNat < 0x80 ∨ 0xC0 ≤ b.toNat

/-- Only a byte that does not begin a character can go on with the one that is pending. -/
def Pending.Bounded : Pending → Prop
  | .need _ _ low high => 0x80 ≤ low ∧ high ≤ 0xBF
  | _ => True

theorem bounded_start (b : UInt8) : (start b).2.Bounded := by
  unfold start
  grind [Pending.Bounded]

theorem bounded_step (p : Pending) (b : UInt8) : (step p b).2.Bounded := by
  have hstart := bounded_start b
  unfold step
  grind [Pending.Bounded]

theorem bounded_feedOnto {s : Progress} (h : s.2.Bounded) (bytes : Bytes) :
    (feedOnto s bytes).2.Bounded := by
  induction bytes generalizing s with
  | nil => exact h
  | cons b rest ih => exact ih (s := advance s b) (bounded_step s.2 b)

/-- A byte that begins a character gives up the one that is pending. -/
theorem step_of_begins {p : Pending} (hp : p.Bounded) {b : UInt8} (hb : Begins b) :
    step p b = (finish p ++ (start b).1, (start b).2) := by
  cases p with
  | none | surrogate => rfl
  | need missing value low high =>
    obtain ⟨hlow, hhigh⟩ := hp
    have hnext : ¬ (low ≤ b.toNat ∧ b.toNat ≤ high) := by grind [Begins]
    have hsurrogate : ¬ (0xA0 ≤ b.toNat ∧ b.toNat ≤ 0xBF) := by grind [Begins]
    simp only [step, finish]
    grind

/-- The bytes of a character begin with one that begins a character. -/
theorem begins_encodeChar (c : Char) : ∃ b rest, encodeChar c = b :: rest ∧ Begins b := by
  have hvalid : c.toNat < 0xD800 ∨ 0xDFFF < c.toNat ∧ c.toNat < 0x110000 := c.valid
  unfold encodeChar Begins
  generalize c.toNat = n at hvalid
  dsimp only
  split
  · exact ⟨_, _, rfl, .inl (by rw [toNat_toUInt8] <;> omega)⟩
  split
  · exact ⟨_, _, rfl, .inr (by rw [toNat_toUInt8] <;> omega)⟩
  split <;> exact ⟨_, _, rfl, .inr (by rw [toNat_toUInt8] <;> omega)⟩

/-- A text whose bytes come after any other ones is decoded to itself. -/
theorem decode_append_encode (bytes : Bytes) (s : String) :
    decode (bytes ++ encode s) = decode bytes ++ s := by
  unfold decode
  rcases hfed : feedOnto ([], .none) bytes with ⟨seen, p⟩
  have hp : p.Bounded := by simpa [hfed] using bounded_feedOnto (s := ([], .none)) trivial bytes
  rw [feedOnto_append, hfed]
  rcases hs : s.toList with _ | ⟨c, cs⟩
  · simp_all [encode, feedOnto]
  · obtain ⟨b, rest, hc, hb⟩ := begins_encodeChar c
    have hbegin : feedOnto (seen, p) (encode s) =
        feedOnto ((finish p).reverse ++ seen, .none) (encode s) := by
      simp only [encode, hs, List.flatMap_cons, hc, List.cons_append, feedOnto,
        List.foldl_cons, advance,
        step_of_begins hp hb, step_none, List.reverse_append, List.append_assoc]
    rw [hbegin, encode, feedOnto_encodeChars]
    simp [finish_eq_nil.mpr rfl, String.append_assoc]

end CommandShell.Utf8
