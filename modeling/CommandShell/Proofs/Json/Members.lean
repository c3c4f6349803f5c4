import CommandShell.Json.Parser
import CommandShell.Json.Printer
import CommandShell.Proofs.Text.Utf8

/-!
# Objects of texts that are read again

A text is written code unit by code unit, each as a character or as an escape that is read as the
same unit, so that halves of pairs come back as well. An object of texts is written with one member
to a line, and it is read as the same members in the same order if no key comes twice.

## Main statements

- `Json.parseUnits_escapeUnit`: what a code unit is written as is read as the code unit.
- `Json.parseString_written`: every text is read as it was written.
- `Json.parse_renderMembers`: so is every object of texts.
-/

namespace CommandShell.Json

/-! ## Code units -/

theorem hexValue?_digitChar {d : Nat} (h : d < 16) : hexValue? d.digitChar = some d := by
  have hall : ∀ d < 16, hexValue? d.digitChar = some d := by decide
  exact hall d h

/-- The last hexadecimal digit stands behind those of the number without it. -/
theorem toList_hex_succ (width n : Nat) :
    (Text.hex (width + 2) n).toList = (Text.hex (width + 1) (n / 16)).toList ++
    [(n % 16).digitChar] := by
  simp only [Text.hex, String.toList_ofList]
  by_cases h : n < 16
  · have hzero : List.replicate (width + 1) '0' = List.replicate width '0' ++
        [(0 : Nat).digitChar] :=
      List.replicate_succ'
    rw [Nat.toDigits_of_lt_base h, Nat.div_eq_of_lt h, Nat.toDigits_of_lt_base (by decide),
      Nat.mod_eq_of_lt h]
    exact congrArg (· ++ [n.digitChar]) hzero
  · rw [Nat.toDigits_of_base_le (by decide) (by omega), List.length_append, List.append_assoc]
    exact congrArg (fun k => List.replicate k '0' ++ _)
      (by simp only [List.length_singleton]; omega)

/-- A code unit has four hexadecimal digits. -/
theorem toList_hex {n : Nat} (h : n < 65536) : (Text.hex 4 n).toList =
    [(n / 16 / 16 / 16).digitChar, (n / 16 / 16 % 16).digitChar, (n / 16 % 16).digitChar,
      (n % 16).digitChar] := by
  have hfirst : (Text.hex 1 (n / 16 / 16 / 16)).toList = [(n / 16 / 16 / 16).digitChar] := by
    simp [Text.hex, Nat.toDigits_of_lt_base (show n / 16 / 16 / 16 < 16 by omega)]
  rw [toList_hex_succ, toList_hex_succ, toList_hex_succ, hfirst]
  rfl

/-- Four hexadecimal digits are read as their code unit. -/
theorem unit?_hex (u : UInt16) (c : Char) (rest : List Char) :
    unit? ((Text.hex 4 u.toNat).toList ++ c :: rest) = some (u, c :: rest) := by
  have hu := u.toNat_lt
  rw [toList_hex hu]
  simp only [List.cons_append, List.nil_append, unit?]
  rw [hexValue?_digitChar (by omega), hexValue?_digitChar (by omega),
    hexValue?_digitChar (by omega), hexValue?_digitChar (by omega)]
  have hvalue : ((u.toNat / 16 / 16 / 16 * 16 + u.toNat / 16 / 16 % 16) * 16 + u.toNat / 16 % 16) *
      16 + u.toNat % 16 = u.toNat := by
    omega
  simp [hvalue]

/-- A character that begins no escape and ends no text stands for itself. -/
theorem parseUnits_plain (opening fuel : Nat) (seen : CodeUnits) {c : Char} (hquote : c ≠ '"')
    (hslash : c ≠ '\\') (hplain : 0x20 ≤ c.toNat) (rest : List Char) :
    parseUnits opening (fuel + 1) seen (c :: rest) =
      parseUnits opening fuel ((CodeUnits.ofChar c).reverse ++ seen) rest := by
  have hcontrol : ¬ c.toNat < 0x20 := by omega
  rw [parseUnits.eq_7 _ _ _ _ _ hquote (fun _ h => absurd h hslash) (fun _ _ h => absurd h hslash)
    (fun h => absurd h hslash), if_neg hcontrol]

/-- What a code unit is written as is read as the code unit. -/
theorem parseUnits_escapeUnit (opening fuel : Nat) (seen : CodeUnits) (u : UInt16) (c : Char)
    (rest : List Char) :
    parseUnits opening (fuel + 1) seen (escapeUnit u ++ c :: rest) =
      parseUnits opening fuel (u :: seen) (c :: rest) := by
  have hsame {n : Nat} (h : u.toNat = n) : n.toUInt16 = u := by simp [← h]
  fun_cases escapeUnit u
  case case1 h | case2 h | case3 h | case4 h | case5 h | case6 h | case7 h =>
    simp [parseUnits, simpleEscape?, ← hsame h]
  case case8 n hquote hslash _ _ _ _ _ hplain =>
    obtain ⟨hlow, hhigh⟩ : 0x20 ≤ u.toNat ∧ u.toNat < 0x7F := by simpa [n] using hplain
    have hchar : (Char.ofNat u.toNat).toNat = u.toNat := Utf8.toNat_ofNat (.inl (by omega))
    have hne {d : Char} (hd : ¬ u.toNat = d.toNat) : Char.ofNat u.toNat ≠ d :=
      fun heq => hd (heq ▸ hchar.symm)
    have hunits : CodeUnits.ofChar (Char.ofNat u.toNat) = [u] := by
      simp [CodeUnits.ofChar, hchar, show u.toNat < 0x10000 by omega]
    rw [List.singleton_append,
      parseUnits_plain opening fuel seen (hne hquote) (hne hslash) (by omega), hunits]
    rfl
  case case9 n _ _ _ _ _ _ _ _ => simp [parseUnits, n, unit?_hex]

theorem escapeUnit_ne_nil (u : UInt16) : escapeUnit u ≠ [] := by
  fun_cases escapeUnit u <;> simp

/-! ## Texts -/

/-- The characters of a text and the quote behind it. -/
def written (units : CodeUnits) (rest : List Char) : List Char :=
  units.flatMap escapeUnit ++ '"' :: rest

theorem length_written (units : CodeUnits) (rest : List Char) :
    units.length < (written units rest).length := by
  induction units with
  | nil => simp [written]
  | cons u units ih =>
    have hpos := List.length_pos_iff.mpr (escapeUnit_ne_nil u)
    simp only [written, List.flatMap_cons, List.length_append, List.length_cons] at ih ⊢
    omega

theorem parseUnits_written (opening fuel : Nat) (seen units : CodeUnits) (rest : List Char)
    (h : units.length < fuel) :
    parseUnits opening fuel seen (written units rest) = .ok (seen.reverse ++ units, rest) := by
  induction units generalizing fuel seen with
  | nil =>
    obtain ⟨fuel, rfl⟩ : ∃ k, fuel = k + 1 := ⟨fuel - 1, by simp at h; omega⟩
    simp [written, parseUnits]
  | cons u units ih =>
    obtain ⟨fuel, rfl⟩ : ∃ k, fuel = k + 1 := ⟨fuel - 1, by simp at h; omega⟩
    obtain ⟨c, tail, htail⟩ :=
      List.exists_cons_of_ne_nil (show written units rest ≠ [] by simp [written])
    have hsplit : written (u :: units) rest = escapeUnit u ++ written units rest := by
      simp [written]
    rw [hsplit, htail, parseUnits_escapeUnit, ← htail, ih fuel (u :: seen) (by simpa using h)]
    simp

/-- Every text is read as it was written. -/
theorem parseString_written (units : CodeUnits) (rest : List Char) :
    parseString (written units rest) = .ok (units, rest) :=
  parseUnits_written _ _ [] units rest (Nat.lt_succ_of_lt (length_written units rest))

theorem parseValue_written (fuel : Nat) (units : CodeUnits) (rest : List Char) :
    parseValue (fuel + 1) ('"' :: written units rest) = .ok (.str units, rest) := by
  simp [parseValue, parseString_written, Except.map]

/-! ## Objects -/

/-- A member of an object. -/
def pair (m : CodeUnits × CodeUnits) (rest : List Char) : List Char :=
  '"' :: written m.1 (':' :: ' ' :: '"' :: written m.2 rest)

/-- The other members of an object and the brace behind them. -/
def tail : List (CodeUnits × CodeUnits) → List Char
  | [] => ['\n', '\x7d']
  | m :: ms => ',' :: '\n' :: ' ' :: ' ' :: pair m (tail ms)

theorem length_pair (m : CodeUnits × CodeUnits) (rest : List Char) :
    rest.length < (pair m rest).length := by
  simp only [pair, written, List.length_append, List.length_cons]
  omega

theorem length_tail (ms : List (CodeUnits × CodeUnits)) : ms.length < (tail ms).length := by
  induction ms with
  | nil => decide
  | cons m ms ih =>
    have := length_pair m (tail ms)
    simp only [tail, List.length_cons]
    omega

/-- A member of an object on its line. -/
def line (m : CodeUnits × CodeUnits) : String :=
  "  " ++ renderString m.1 ++ ": " ++ renderString m.2

theorem toList_renderMembers (m : CodeUnits × CodeUnits) (ms : List (CodeUnits × CodeUnits)) :
    (renderMembers (m :: ms)).toList = '\x7b' :: '\n' :: ' ' :: ' ' :: pair m (tail ms) := by
  have hlines (m : CodeUnits × CodeUnits) (ms : List (CodeUnits × CodeUnits)) :
      (String.intercalate ",\n" ((m :: ms).map line)).toList ++ ['\n', '\x7d'] = ' ' :: ' ' ::
        pair m (tail ms) := by
    induction ms generalizing m with
    | nil => simp [line, renderString, pair, written, tail]
    | cons m' ms ih =>
      rw [List.map_cons, String.intercalate_cons_of_ne_nil (by simp), String.toList_append,
        List.append_assoc, ih m']
      simp [line, renderString, pair, written, tail]
  have hrender : renderMembers (m :: ms) = "\x7b\n" ++
      String.intercalate ",\n" ((m :: ms).map line) ++ "\n\x7d" := rfl
  rw [hrender, String.toList_append, String.toList_append, List.append_assoc]
  exact congrArg (['\x7b', '\n'] ++ ·) (hlines m ms)

theorem skipSpace_cons {c : Char} (h : isSpace c = false) (rest : List Char) :
    skipSpace (c :: rest) = c :: rest := by
  simp [skipSpace, h]

/-- The members of an object are read one after the other. -/
theorem parseMembers_pair (fuel : Nat) (seen : List (CodeUnits × Json)) (m : CodeUnits × CodeUnits)
    (ms : List (CodeUnits × CodeUnits)) (h : ms.length + 1 < fuel) :
    parseMembers fuel seen (pair m (tail ms)) =
      .ok ((m :: ms).foldl (fun seen m => setMember seen m.1 (.str m.2)) seen, []) := by
  induction ms generalizing fuel seen m with
  | nil =>
    obtain ⟨fuel, rfl⟩ : ∃ k, fuel = k + 2 := ⟨fuel - 2, by simp at h; omega⟩
    simp [pair, parseMembers, parseString_written, skipSpace, isSpace, parseValue_written, tail]
  | cons m' ms ih =>
    obtain ⟨fuel, rfl⟩ : ∃ k, fuel = k + 2 := ⟨fuel - 2, by simp at h; omega⟩
    have ih := ih (fuel + 1) (setMember seen m.1 (.str m.2)) m' (by simpa using h)
    rw [List.foldl_cons, ← ih]
    simp [pair, parseMembers, parseString_written, skipSpace, isSpace, parseValue_written, tail]

/-- A key stays where it is, and a new one comes last. -/
theorem keys_setMember {α : Type} (members : List (CodeUnits × α)) (key : CodeUnits) (value : α) :
    (setMember members key value).map Prod.fst =
      if key ∈ members.map Prod.fst then members.map Prod.fst
        else members.map Prod.fst ++ [key] := by
  induction members with
  | nil => rfl
  | cons m rest ih =>
    by_cases hkey : m.1 = key
    · simp [setMember, hkey]
    · have hkey' : key ≠ m.1 := fun h => hkey h.symm
      simp only [setMember, if_neg hkey, List.map_cons, ih, List.mem_cons, hkey', false_or]
      split <;> rfl

theorem nodup_setMember {α : Type} {members : List (CodeUnits × α)}
    (h : (members.map Prod.fst).Nodup) (key : CodeUnits) (value : α) :
    ((setMember members key value).map Prod.fst).Nodup := by
  rw [keys_setMember]
  split
  · exact h
  · next hnew =>
    refine List.nodup_append.mpr ⟨h, by simp, fun k hk k' hk' => ?_⟩
    rintro rfl
    exact hnew (List.mem_singleton.mp hk' ▸ hk)

/-- Members with new keys stand behind the others. -/
theorem foldl_setMember {α β : Type} (f : α → β) (ms : List (CodeUnits × α))
    (seen : List (CodeUnits × β)) (h : (seen.map Prod.fst ++ ms.map Prod.fst).Nodup) :
    ms.foldl (fun seen m => setMember seen m.1 (f m.2)) seen = seen ++ ms.map fun m =>
      (m.1, f m.2) := by
  have hnew {key : CodeUnits} (seen : List (CodeUnits × β)) (value : β)
      (hkey : key ∉ seen.map Prod.fst) :
      setMember seen key value = seen ++ [(key, value)] := by
    induction seen with
    | nil => rfl
    | cons m seen ih => simp_all [setMember, eq_comm]
  induction ms generalizing seen with
  | nil => simp
  | cons m ms ih =>
    have hkey : m.1 ∉ seen.map Prod.fst := by
      intro hmem
      exact (List.nodup_append.mp h).2.2 _ hmem _ (by simp) rfl
    rw [List.foldl_cons, hnew seen (f m.2) hkey, ih _ (by simpa using h)]
    simp

/-- An object of texts is read as it was written if no key comes twice. -/
theorem parse_renderMembers {ms : List (CodeUnits × CodeUnits)} (h : (ms.map Prod.fst).Nodup) :
    parse (renderMembers ms) = .ok (.obj (ms.map fun m => (m.1, .str m.2))) := by
  cases ms with
  | nil => rfl
  | cons m ms =>
    let size := (renderMembers (m :: ms)).toList.length
    have hfuel : ms.length + 1 < 2 * size + 1 := by
      have hpair := length_pair m (tail ms)
      have htail := length_tail ms
      simp only [size, toList_renderMembers, List.length_cons]
      omega
    have hmembers := parseMembers_pair (2 * size + 1) [] m ms hfuel
    rw [foldl_setMember Json.str (m :: ms) [] h, List.nil_append] at hmembers
    have hvalue : parseValue (2 * size + 2) (skipSpace (renderMembers (m :: ms)).toList) =
        .ok (.obj ((m :: ms).map fun m => (m.1, .str m.2)), []) := by
      have hquote : skipSpace ('\n' :: ' ' :: ' ' :: pair m (tail ms)) = pair m (tail ms) := by
        simp [skipSpace, isSpace, pair]
      rw [toList_renderMembers, skipSpace_cons rfl, parseValue]
      dsimp only
      rw [if_neg (by decide), if_neg (by decide), if_pos rfl, hquote]
      split
      · next hbrace => simp [pair] at hbrace
      · rw [hmembers]
        rfl
    unfold parse
    dsimp only
    split
    · next hmark => simp [toList_renderMembers] at hmark
    · rw [hvalue]
      rfl

/-! ## Carriage returns -/

/-- A code unit is written in printable ASCII. -/
theorem isPrintable_escapeUnit (u : UInt16) : ∀ c ∈ escapeUnit u, 0x20 ≤ c.toNat ∧
    c.toNat < 0x7F := by
  fun_cases escapeUnit u
  case case8 n _ _ _ _ _ _ _ hplain =>
    obtain ⟨hlow, hhigh⟩ : 0x20 ≤ u.toNat ∧ u.toNat < 0x7F := by simpa [n] using hplain
    have hchar : (Char.ofNat u.toNat).toNat = u.toNat := Utf8.toNat_ofNat (.inl (by omega))
    intro c hc
    rw [List.mem_singleton.mp hc, hchar]
    exact ⟨hlow, hhigh⟩
  case case9 n _ _ _ _ _ _ _ _ =>
    have hdigit : ∀ d < 16, 0x20 ≤ d.digitChar.toNat ∧ d.digitChar.toNat < 0x7F := by decide
    have hu := u.toNat_lt
    rw [toList_hex hu]
    simp only [List.mem_cons, List.not_mem_nil, or_false]
    rintro c (rfl | rfl | rfl | rfl | rfl | rfl)
    · decide
    · decide
    all_goals exact hdigit _ (by omega)
  all_goals simp

theorem not_return_mem_escapeUnit (u : UInt16) : '\r' ∉ escapeUnit u := fun h =>
  absurd (isPrintable_escapeUnit u _ h).1 (by decide)

/-- An object of texts is written without a carriage return. -/
theorem not_return_mem_renderMembers (ms : List (CodeUnits × CodeUnits)) :
    '\r' ∉ (renderMembers ms).toList := by
  have hwritten (units : CodeUnits) {rest : List Char} (h : '\r' ∉ rest) :
      '\r' ∉ written units rest := by
    simp [written, h, not_return_mem_escapeUnit]
  have hpair (m : CodeUnits × CodeUnits) {rest : List Char} (h : '\r' ∉ rest) :
      '\r' ∉ pair m rest := by
    have hvalue :=
      hwritten m.1 (show '\r' ∉ ':' :: ' ' :: '"' :: written m.2 rest by simp [hwritten m.2 h])
    simpa [pair] using hvalue
  have htail (ms : List (CodeUnits × CodeUnits)) : '\r' ∉ tail ms := by
    induction ms with
    | nil => decide
    | cons m ms ih => simpa [tail] using hpair m ih
  cases ms with
  | nil => decide
  | cons m ms =>
    rw [toList_renderMembers]
    simpa using hpair m (htail ms)

end CommandShell.Json
