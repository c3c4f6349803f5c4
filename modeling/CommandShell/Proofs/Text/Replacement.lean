import Mathlib.Algebra.Group.Nat.Defs
import CommandShell.Proofs.Text.Utf8

/-!
# What is replaced

Bytes are read from the left. A character is read where its encoding stands. Where none stands, the
longest bytes that the encoding of a character could have begun with are replaced as one, or else a
single byte. The decoder knows nothing of the bytes that come next, yet what it makes of a text is
just that.

A character that is pending is described by the numbers that it may still turn out to have.

## Main statements

- `Utf8.Awaits.more`: one more byte of a character that is pending.
- `Utf8.begins_or_replaces`: what a text that is not empty begins with.
- `Utf8.reads_iff`: decoding is the only way in which bytes are read.
-/

namespace CommandShell.Utf8

/-- Bytes that the encoding of a character begins with. -/
def Opens (bytes : Bytes) : Prop := ∃ c, bytes <+: encodeChar c

/-- Bytes that are replaced as one before the rest: they could begin a character or are a single
byte, and no more of the bytes could begin one. -/
structure MaximalSubpart (sub rest : Bytes) : Prop where
  nonempty : sub ≠ []
  opens : Opens sub ∨ sub.length = 1
  longest : ∀ more, more ≠ [] → more <+: rest → ¬ Opens (sub ++ more)

/-- The way in which bytes are read as characters. -/
inductive Reads : Bytes → List Char → Prop
  | nil : Reads [] []
  | char (c : Char) {rest : Bytes} {cs : List Char} (h : Reads rest cs) :
    Reads (encodeChar c ++ rest) (c :: cs)
  | replaced {sub rest : Bytes} {cs : List Char} (hnone : ∀ c, ¬ encodeChar c <+: sub ++ rest)
      (hsub : MaximalSubpart sub rest) (h : Reads rest cs) : Reads (sub ++ rest) (replacement :: cs)

/-! ## Characters that are pending -/

/-- The last bytes of the encoding of a number, with six bits in each. -/
def tail : Nat → Nat → Bytes
  | 0, _ => []
  | k + 1, n => (0x80 + n / 64 ^ k % 64).toUInt8 :: tail k n

/-- The numbers that a character may have which is pending. -/
def Fits (missing value low high n : Nat) : Prop :=
  n / 64 ^ (missing + 1) = value ∧ low ≤ 0x80 + n / 64 ^ missing % 64 ∧
    0x80 + n / 64 ^ missing % 64 ≤ high

/-- A character that is pending after some bytes: it is one of those whose encodings begin with the
bytes. -/
structure Awaits (missing value low high : Nat) (seen : Bytes) : Prop where
  range : low ≤ high
  valid : ∀ n, Fits missing value low high n → n.isValidChar
  fits : ∀ c : Char, seen <+: encodeChar c → Fits missing value low high c.toNat
  encode : ∀ c : Char, Fits missing value low high c.toNat →
    encodeChar c = seen ++ tail (missing + 1) c.toNat
  fed : feedOnto ([], .none) seen = ([], .need missing value low high)

section Pending

variable {missing value low high n : Nat} {seen : Bytes} {b : UInt8} {c : Char}

theorem bounded_of_fed (h : feedOnto ([], .none) seen = ([], .need missing value low high)) :
    0x80 ≤ low ∧ high ≤ 0xBF := by
  have hnone : Pending.Bounded .none := trivial
  have hbounded : (feedOnto ([], .none) seen).2.Bounded := bounded_feedOnto hnone seen
  rwa [h] at hbounded

theorem div_pow_succ (n k : Nat) : n / 64 ^ (k + 1) = n / 64 ^ k / 64 := by
  rw [Nat.div_div_eq_div_mul, ← Nat.pow_succ]

theorem toUInt8_eq (h : n = b.toNat) : n.toUInt8 = b := by
  rw [h, Nat.toUInt8, UInt8.ofNat_toNat]

/-- The numbers that are left when one more byte is there are those that go on with it. -/
theorem fits_more_iff (hlow : low ≤ b.toNat) (hhigh : b.toNat ≤ high)
    (hbound : 0x80 ≤ low ∧ high ≤ 0xBF) :
    Fits missing (value * 0x40 + (b.toNat - 0x80)) 0x80 0xBF n ↔
      Fits (missing + 1) value low high n ∧ 0x80 + n / 64 ^ (missing + 1) % 64 = b.toNat := by
  have hdiv := div_pow_succ n (missing + 1)
  unfold Fits
  rw [hdiv]
  omega

/-- One more byte of a character that is pending. -/
theorem Awaits.more (h : Awaits (missing + 1) value low high seen) (hlow : low ≤ b.toNat)
    (hhigh : b.toNat ≤ high) :
    Awaits missing (value * 0x40 + (b.toNat - 0x80)) 0x80 0xBF (seen ++ [b]) := by
  have hiff (n : Nat) : Fits missing (value * 0x40 + (b.toNat - 0x80)) 0x80 0xBF n ↔
      Fits (missing + 1) value low high n ∧ 0x80 + n / 64 ^ (missing + 1) % 64 = b.toNat :=
    fits_more_iff hlow hhigh (bounded_of_fed h.fed)
  have hbyte {n : Nat} (hn : 0x80 + n / 64 ^ (missing + 1) % 64 = b.toNat) :
      tail (missing + 2) n = b :: tail (missing + 1) n := by
    rw [tail, toUInt8_eq hn]
  constructor
  · decide
  · exact fun n hn => h.valid n ((hiff n).mp hn).1
  · intro c hc
    have hfits := h.fits c ((List.prefix_append seen [b]).trans hc)
    rw [h.encode c hfits, List.prefix_append_right_inj, tail, List.cons_prefix_cons] at hc
    refine (hiff _).mpr ⟨hfits, ?_⟩
    rw [hc.1, toNat_toUInt8 (by omega)]
  · intro c hc
    obtain ⟨hfits, hn⟩ := (hiff _).mp hc
    rw [h.encode c hfits, hbyte hn, List.append_assoc, List.singleton_append]
  · rw [feedOnto_append, h.fed]
    simp [feedOnto, advance, step, hlow, hhigh]

/-- A byte that a pending character can go on with begins the encoding of one with the bytes that
are there. -/
theorem Awaits.completes (h : Awaits missing value low high seen) (hlow : low ≤ b.toNat)
    (hhigh : b.toNat ≤ high) : ∃ c : Char, encodeChar c = seen ++ b :: tail missing c.toNat := by
  obtain ⟨hlow', hhigh'⟩ := bounded_of_fed h.fed
  let n := (value * 64 + (b.toNat - 0x80)) * 64 ^ missing
  have hn : n / 64 ^ missing = value * 64 + (b.toNat - 0x80) :=
    Nat.mul_div_cancel _ (Nat.pow_pos (by decide))
  have hdiv := div_pow_succ n missing
  have hfits : Fits missing value low high n := by
    unfold Fits
    omega
  have hchar : (Char.ofNat n).toNat = n := toNat_ofNat (h.valid n hfits)
  have hbyte : 0x80 + n / 64 ^ missing % 64 = b.toNat := by omega
  refine ⟨Char.ofNat n, ?_⟩
  rw [h.encode _ (hchar.symm ▸ hfits), hchar, tail, toUInt8_eq hbyte]

/-! ## The first byte -/

/-- The number of the first byte of a character. -/
def leadOf (n : Nat) : Nat :=
  if n < 0x80 then n
  else if n < 0x800 then 0xC0 + n / 0x40
  else if n < 0x10000 then 0xE0 + n / 0x1000
  else 0xF0 + n / 0x40000

/-- How many bytes of a character come after the first one. -/
def tailSize (n : Nat) : Nat :=
  if n < 0x80 then 0 else if n < 0x800 then 1 else if n < 0x10000 then 2 else 3

/-- A character is encoded by its first byte and the bytes after it. -/
theorem encodeChar_eq (c : Char) :
    encodeChar c = (leadOf c.toNat).toUInt8 :: tail (tailSize c.toNat) c.toNat := by
  unfold encodeChar leadOf tailSize
  dsimp only
  split
  · rfl
  split
  · simp [tail]
  split <;> simp [tail]

theorem leadOf_lt (hn : n.isValidChar) : leadOf n < 0x100 := by
  unfold leadOf
  simp only [Nat.isValidChar] at hn
  split
  · omega
  split
  · omega
  split <;> omega

/-- The encoding of a character begins with its first byte. -/
theorem singleton_prefix_encodeChar_iff : [b] <+: encodeChar c ↔ leadOf c.toNat = b.toNat := by
  have hlead : (leadOf c.toNat).toUInt8.toNat = leadOf c.toNat := toNat_toUInt8 (leadOf_lt c.valid)
  rw [encodeChar_eq, List.cons_prefix_cons, ← UInt8.toNat_inj, hlead]
  simp [eq_comm]

/-- After the first byte of a character that has more of them the character is pending. -/
theorem awaits_singleton (hstart : start b = ([], .need missing value low high))
    (hrange : low ≤ high) (hvalid : ∀ n, Fits missing value low high n → n.isValidChar ∧
      tailSize n = missing + 1)
    (hlead : ∀ n, n.isValidChar → (leadOf n = b.toNat ↔ Fits missing value low high n)) :
    Awaits missing value low high [b] := by
  constructor
  · exact hrange
  · exact fun n hn => (hvalid n hn).1
  · exact fun c hc => (hlead _ c.valid).mp (singleton_prefix_encodeChar_iff.mp hc)
  · intro c hc
    have hfirst : leadOf c.toNat = b.toNat := (hlead _ c.valid).mpr hc
    rw [encodeChar_eq, (hvalid _ hc).2, toUInt8_eq hfirst]
    rfl
  · simp [feedOnto, advance, step, hstart]

/-- A byte is a character, begins one that is pending, or begins none. -/
theorem start_cases (b : UInt8) :
    (∃ c, start b = ([c], .none) ∧ encodeChar c = [b]) ∨
    (∃ missing value low high, start b = ([], .need missing value low high) ∧
      Awaits missing value low high [b]) ∨
    (start b = ([replacement], .none) ∧ ∀ c, ¬ [b] <+: encodeChar c) := by
  have hb : b.toNat < 0x100 := b.toNat_lt
  have hnever (hfirst : ∀ n, n.isValidChar → leadOf n ≠ b.toNat) (c : Char) :
      ¬ [b] <+: encodeChar c :=
    fun h => hfirst _ c.valid (singleton_prefix_encodeChar_iff.mp h)
  by_cases h1 : b.toNat < 0x80
  · have hvalid : b.toNat.isValidChar := .inl (by omega)
    refine .inl ⟨Char.ofNat b.toNat, by simp [start, h1], ?_⟩
    rw [encodeChar, toNat_ofNat hvalid, if_pos h1, toUInt8_eq rfl]
  by_cases h2 : b.toNat < 0xC2
  · refine .inr (.inr ⟨by simp [start, h1, h2], hnever fun n hn => ?_⟩)
    simp only [leadOf, Nat.isValidChar] at hn ⊢
    grind
  by_cases h3 : b.toNat < 0xE0
  · have hstart : start b = ([], .need 0 (b.toNat - 0xC0) 0x80 0xBF) := by simp [start, h1, h2, h3]
    refine .inr (.inl ⟨_, _, _, _, hstart,
      awaits_singleton hstart (by decide) (fun n hn => ?_) fun n hn => ?_⟩)
    · simp only [Fits, tailSize, Nat.isValidChar] at hn ⊢
      grind
    · simp only [Fits, leadOf, Nat.isValidChar] at hn ⊢
      grind
  by_cases h4 : b.toNat < 0xF0
  · have hstart : start b = ([], .need 1 (b.toNat - 0xE0) (if b.toNat = 0xE0 then 0xA0 else 0x80)
        (if b.toNat = 0xED then 0x9F else 0xBF)) := by
      simp [start, h1, h2, h3, h4]
    refine .inr (.inl ⟨_, _, _, _, hstart,
      awaits_singleton hstart (by grind) (fun n hn => ?_) fun n hn => ?_⟩)
    · simp only [Fits, tailSize, Nat.isValidChar] at hn ⊢
      grind
    · simp only [Fits, leadOf, Nat.isValidChar] at hn ⊢
      grind
  by_cases h5 : b.toNat < 0xF5
  · have hstart : start b = ([], .need 2 (b.toNat - 0xF0) (if b.toNat = 0xF0 then 0x90 else 0x80)
        (if b.toNat = 0xF4 then 0x8F else 0xBF)) := by
      simp [start, h1, h2, h3, h4, h5]
    refine .inr (.inl ⟨_, _, _, _, hstart,
      awaits_singleton hstart (by grind) (fun n hn => ?_) fun n hn => ?_⟩)
    · simp only [Fits, tailSize, Nat.isValidChar] at hn ⊢
      grind
    · simp only [Fits, leadOf, Nat.isValidChar] at hn ⊢
      grind
  · refine .inr (.inr ⟨by simp [start, h1, h2, h3, h4, h5], hnever fun n hn => ?_⟩)
    simp only [leadOf, Nat.isValidChar] at hn ⊢
    grind

end Pending

/-! ## Reading -/

/-- What comes out of bytes, to the end of the text, when a character may be pending. -/
def following (p : Pending) (bytes : Bytes) : List Char :=
  (feedOnto ([], p) bytes).1.reverse ++ finish (feedOnto ([], p) bytes).2

theorem toList_decode (bytes : Bytes) : (decode bytes).toList = following .none bytes := by
  simp [decode, following]

@[simp] theorem following_nil (p : Pending) : following p [] = finish p := rfl

theorem following_append (p : Pending) (bytes rest : Bytes) : following p (bytes ++ rest) =
    (feedOnto ([], p) bytes).1.reverse ++ following (feedOnto ([], p) bytes).2 rest := by
  unfold following
  rw [feedOnto_append, feedOnto_eq (feedOnto ([], p) bytes).1, List.reverse_append,
    List.append_assoc]

theorem following_cons (p : Pending) (b : UInt8) (rest : Bytes) :
    following p (b :: rest) = (step p b).1 ++ following (step p b).2 rest := by
  simpa [feedOnto, advance] using following_append p [b] rest

theorem following_encodeChar (c : Char) (rest : Bytes) :
    following .none (encodeChar c ++ rest) = c :: following .none rest := by
  simp [following_append, feedOnto_encodeChar]

/-- The first two bytes of a surrogate are replaced, each by itself. -/
theorem following_surrogate (bytes : Bytes) :
    following .surrogate bytes = replacement :: replacement :: following .none bytes := by
  cases bytes <;> simp [following_cons, step, finish]

/-- A byte that a pending character cannot go on with gives it up, and is read on its own. -/
theorem following_need {missing value low high : Nat} {b : UInt8}
    (hb : ¬ (low ≤ b.toNat ∧ b.toNat ≤ high)) (bytes : Bytes) :
      following (.need missing value low high) (b :: bytes) =
      replacement :: following .none (b :: bytes) := by
  rw [following_cons, following_cons, step, step]
  simp only [Bool.and_eq_true, decide_eq_true_eq, if_neg hb]
  split
  · next hsurrogate =>
    have hstart : start b = ([replacement], .none) := by simp [start]; grind
    rw [hstart, following_surrogate]
    rfl
  · rfl

section Reading

variable {missing value low high : Nat} {seen rest : Bytes} {b : UInt8}

/-- The bytes of a pending character are not yet the encoding of one. -/
theorem Awaits.not_encodes (h : Awaits missing value low high seen) (c : Char) :
    ¬ encodeChar c <+: seen := by
  rintro ⟨more, rfl⟩
  have hfed := h.fed
  rw [feedOnto_append, feedOnto_encodeChar, feedOnto_eq] at hfed
  simp at hfed

/-- Bytes that the text begins with and that are replaced as one. -/
def Replaces (bytes : Bytes) : Prop :=
  ∃ sub rest, bytes = sub ++ rest ∧ (∀ c, ¬ encodeChar c <+: bytes) ∧ MaximalSubpart sub rest ∧
    following .none bytes = replacement :: following .none rest

theorem Awaits.opens (h : Awaits missing value low high seen) : Opens seen := by
  obtain ⟨hlow, hhigh⟩ := bounded_of_fed h.fed
  have hrange := h.range
  have hb : low.toUInt8.toNat = low := toNat_toUInt8 (by omega)
  obtain ⟨c, hc⟩ : ∃ c : Char, encodeChar c = seen ++ low.toUInt8 :: tail missing c.toNat :=
    h.completes (by omega) (by omega)
  exact ⟨c, hc ▸ List.prefix_append ..⟩

/-- Only the bytes in the range go on with a pending character. -/
theorem Awaits.next (h : Awaits missing value low high seen) (hopens : Opens (seen ++ b :: rest)) :
    low ≤ b.toNat ∧ b.toNat ≤ high := by
  obtain ⟨c, hc⟩ := hopens
  obtain ⟨hvalue, hlow, hhigh⟩ := h.fits c ((List.prefix_append ..).trans hc)
  have hbound := bounded_of_fed h.fed
  rw [h.encode c ⟨hvalue, hlow, hhigh⟩, List.prefix_append_right_inj, tail,
    List.cons_prefix_cons] at hc
  rw [hc.1, toNat_toUInt8 (by omega)]
  exact ⟨hlow, hhigh⟩

/-- A pending character that is given up is replaced. -/
theorem Awaits.replaces (h : Awaits missing value low high seen) (hne : seen ≠ [])
    (hrest : ∀ b more, rest = b :: more → ¬ (low ≤ b.toNat ∧ b.toNat ≤ high))
    (hfollowing : following (.need missing value low high) rest = replacement ::
      following .none rest) :
    Replaces (seen ++ rest) := by
  have hlongest (more : Bytes) (hmore : more ≠ []) (hmore' : more <+: rest) :
      ¬ Opens (seen ++ more) := by
    intro hopens
    obtain ⟨b, more, rfl⟩ := List.exists_cons_of_ne_nil hmore
    obtain ⟨last, rfl⟩ := hmore'
    exact hrest b _ rfl (h.next hopens)
  refine ⟨seen, rest, rfl, fun c hc => ?_, ⟨hne, .inl h.opens, hlongest⟩, ?_⟩
  · obtain hwithin | ⟨more, hmore⟩ :=
      List.prefix_or_prefix_of_prefix hc (List.prefix_append seen rest)
    · exact h.not_encodes c hwithin
    · rw [← hmore, List.prefix_append_right_inj] at hc
      refine hlongest more ?_ hc ⟨c, hmore ▸ List.prefix_refl _⟩
      rintro rfl
      exact h.not_encodes c (by simp [← hmore])
  · rw [following_append, h.fed, List.reverse_nil, List.nil_append, hfollowing]

/-- What a text begins with when a character is pending. -/
theorem Awaits.begins_or_replaces (h : Awaits missing value low high seen) (hne : seen ≠ [])
    (bytes : Bytes) : (∃ c rest, seen ++ bytes = encodeChar c ++ rest) ∨
      Replaces (seen ++ bytes) := by
  induction bytes generalizing missing value low high seen with
  | nil => exact .inr (h.replaces hne (by simp) (by simp [finish]))
  | cons b bytes ih =>
    by_cases hb : low ≤ b.toNat ∧ b.toNat ≤ high
    · cases missing with
      | zero =>
        obtain ⟨c, hc⟩ := h.completes hb.1 hb.2
        exact .inl ⟨c, bytes, by simp [hc, tail]⟩
      | succ missing => simpa using ih (h.more hb.1 hb.2) (by simp)
    · refine .inr (h.replaces hne ?_ ?_)
      · rintro _ _ ⟨⟩
        exact hb
      · exact following_need hb bytes

/-- What a text begins with: the encoding of a character, or bytes that are replaced. -/
theorem begins_or_replaces (b : UInt8) (bytes : Bytes) :
    (∃ c rest, b :: bytes = encodeChar c ++ rest) ∨ Replaces (b :: bytes) := by
  obtain ⟨c, -, hc⟩ | ⟨missing, value, low, high, -, hawaits⟩ | ⟨hstart, hnone⟩ := start_cases b
  · exact .inl ⟨c, bytes, by simp [hc]⟩
  · exact hawaits.begins_or_replaces (by simp) bytes
  · have hopens (more : Bytes) : ¬ Opens ([b] ++ more) := by
      rintro ⟨c, hc⟩
      exact hnone c ((List.prefix_append ..).trans hc)
    refine .inr ⟨[b], bytes, rfl, fun c hc => ?_,
      ⟨by simp, .inr rfl, fun more _ _ => hopens more⟩, ?_⟩
    · obtain ⟨first, more, hfirst, -⟩ := begins_encodeChar c
      rw [hfirst, List.cons_prefix_cons] at hc
      exact hnone c (by simp [hfirst, hc.1])
    · simp [following_cons, step, hstart]

/-- What is replaced at the front of a text does not depend on how the text is read. -/
theorem MaximalSubpart.eq_of_append_eq {sub sub' rest rest' : Bytes} (h : MaximalSubpart sub rest)
    (h' : MaximalSubpart sub' rest') (heq : sub ++ rest = sub' ++ rest') :
      sub = sub' ∧ rest = rest' := by
  have hnever {sub sub' rest rest' more : Bytes} (h : MaximalSubpart sub rest)
      (h' : MaximalSubpart sub' rest')
      (hsub : sub' = sub ++ more) (hrest : rest = more ++ rest') : more = [] := by
    refine Classical.byContradiction fun hmore => ?_
    obtain hopens | hsingle := h'.opens
    · exact h.longest more hmore (hrest ▸ List.prefix_append ..) (hsub ▸ hopens)
    · have := List.length_pos_iff.mpr h.nonempty
      have := List.length_pos_iff.mpr hmore
      simp [hsub] at hsingle
      omega
  obtain ⟨more, hsub, hrest⟩ | ⟨more, hsub, hrest⟩ := List.append_eq_append_iff.mp heq
  · obtain rfl := hnever h h' hsub hrest
    simp_all
  · obtain rfl := hnever h' h hsub hrest
    simp_all

/-- There is one way in which bytes are read. -/
theorem Reads.eq_following {bytes : Bytes} {cs : List Char} (h : Reads bytes cs) :
    cs = following .none bytes := by
  induction h with
  | nil => rfl
  | char c _ ih => rw [following_encodeChar, ih]
  | @replaced sub rest cs hnone hsub _ ih =>
    obtain ⟨b, more, hbytes⟩ :=
      List.exists_cons_of_ne_nil (List.append_ne_nil_of_left_ne_nil hsub.nonempty rest)
    obtain ⟨c, rest', hc⟩ | ⟨sub', rest', heq, -, hsub', hfollowing⟩ := begins_or_replaces b more
    · exact absurd (hbytes.trans hc ▸ List.prefix_append ..) (hnone c)
    · rw [← hbytes] at heq hfollowing
      obtain ⟨rfl, rfl⟩ := hsub.eq_of_append_eq hsub' heq
      rw [hfollowing, ih]

theorem reads_following (bytes : Bytes) : Reads bytes (following .none bytes) := by
  induction hn : bytes.length using Nat.strongRecOn generalizing bytes with
  | _ n ih =>
    cases bytes with
    | nil => exact .nil
    | cons b bytes =>
      have hrest {front rest : Bytes} (hfront : front ≠ []) (heq : b :: bytes = front ++ rest) :
          Reads rest (following .none rest) := by
        refine ih rest.length ?_ rest rfl
        have := List.length_pos_iff.mpr hfront
        rw [← hn, heq, List.length_append]
        omega
      obtain ⟨c, rest, hc⟩ | ⟨sub, rest, heq, hnone, hsub, hfollowing⟩ := begins_or_replaces b bytes
      · rw [hc, following_encodeChar]
        exact .char c (hrest (by simp [encodeChar_eq]) hc)
      · rw [hfollowing, heq]
        exact .replaced (heq ▸ hnone) hsub (hrest hsub.nonempty heq)

/-- Decoding is the only way in which bytes are read. -/
theorem reads_iff (bytes : Bytes) (cs : List Char) :
    Reads bytes cs ↔ cs = (decode bytes).toList := by
  rw [toList_decode]
  constructor
  · exact Reads.eq_following
  · rintro rfl
    exact reads_following bytes

end Reading

end CommandShell.Utf8
