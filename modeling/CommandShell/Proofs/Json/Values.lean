import CommandShell.Proofs.Json.Members

/-!
# Values that are read again

Every value without floating-point numbers that can be read from a text is written so that it is
read again as itself, however deep it is nested. What a text can be read as is described without the
reader: its integers are not too long, and no object has a key twice.

## Main definitions

* `Json.FloatFree`: a value without floating-point numbers.
* `Json.Readable`: a value without integers of too many digits and without objects that have a key
  twice.

## Main statements

* `Json.readable_of_parse`: what is read from a text is readable.
* `Json.parse_render`: what is readable is read as it was written.
* `Json.isAscii_render`: it is written in ASCII.
-/

namespace CommandShell.Json

/-- A value without floating-point numbers. -/
inductive FloatFree : Json → Prop where
  | null : FloatFree .null
  | bool (b : Bool) : FloatFree (.bool b)
  | int (i : Int) : FloatFree (.int i)
  | str (s : CodeUnits) : FloatFree (.str s)
  | arr {items : List Json} (h : ∀ v ∈ items, FloatFree v) : FloatFree (.arr items)
  | obj {members : List (CodeUnits × Json)} (h : ∀ m ∈ members, FloatFree m.2) :
      FloatFree (.obj members)

/-- What a text can be read as: no integer in it has too many digits, and no object has a key
twice. -/
inductive Readable : Json → Prop where
  | null : Readable .null
  | bool (b : Bool) : Readable (.bool b)
  | int {i : Int} (h : (Nat.toDigits 10 i.natAbs).length ≤ Text.maxDigits) : Readable (.int i)
  | float (x : Binary64) : Readable (.float x)
  | str (s : CodeUnits) : Readable (.str s)
  | arr {items : List Json} (h : ∀ v ∈ items, Readable v) : Readable (.arr items)
  | obj {members : List (CodeUnits × Json)} (nodup : (members.map Prod.fst).Nodup)
      (h : ∀ m ∈ members, Readable m.2) : Readable (.obj members)

/-! ## Integers -/

theorem isDigit_of_mem_toDigits {n : Nat} {c : Char} (h : c ∈ Nat.toDigits 10 n) :
    isDigit c = true := by
  have hdigit := Nat.isDigit_of_mem_toDigits (by decide) (by decide) h
  simp only [Char.isDigit, Bool.and_eq_true, decide_eq_true_eq, ge_iff_le,
    UInt32.le_iff_toNat_le] at hdigit
  change 48 ≤ c.toNat ∧ c.toNat ≤ 57 at hdigit
  simp [isDigit, hdigit]

theorem natOfDigits_toDigits (n : Nat) : natOfDigits (Nat.toDigits 10 n) = n :=
  Nat.ofDigitChars_ten_toDigits

/-- A numeral begins with a zero only if it is one. -/
theorem eq_zero_of_head?_toDigits {n : Nat} (h : (Nat.toDigits 10 n).head? = some '0') : n = 0 := by
  induction n using Nat.base_induction 10 (by decide) with
  | single m hm => simpa [Nat.toDigits_of_lt_base hm] using h
  | digit m k hk hm ih =>
    rw [← Nat.toDigits_append_toDigits (by decide) hm hk, List.head?_append,
      List.head?_eq_some_head Nat.toDigits_ne_nil, Option.some_or, ← List.head?_eq_some_head] at h
    have := ih h
    omega

/-- What may follow a value inside another one, or at the end. -/
def Follows (rest : List Char) : Prop := ∀ c ∈ rest.head?, c = ',' ∨ c = ']' ∨ c = '\x7d'

theorem parseFraction_of_follows {rest : List Char} (h : Follows rest) :
    parseFraction rest = (none, rest) := by
  cases rest with
  | nil => rfl
  | cons c rest => rcases h c rfl with rfl | rfl | rfl <;> rfl

theorem parseExponent_of_follows {rest : List Char} (h : Follows rest) :
    parseExponent rest = (none, rest) := by
  cases rest with
  | nil => rfl
  | cons c rest => rcases h c rfl with rfl | rfl | rfl <;> rfl

theorem takeWhile_of_follows {rest : List Char} (h : Follows rest) :
    rest.takeWhile isDigit = [] := by
  cases rest with
  | nil => rfl
  | cons c rest => rcases h c rfl with rfl | rfl | rfl <;> rfl

/-- A numeral is read digit by digit, a zero alone. -/
theorem digits_eq {n : Nat} {d : Char} {ds rest : List Char} (hds : Nat.toDigits 10 n = d :: ds)
    (hrest : Follows rest) :
    (if d = '0' then [d] else (d :: (ds ++ rest)).takeWhile isDigit) = Nat.toDigits 10 n := by
  split
  · next hd =>
    have hn : n = 0 := eq_zero_of_head?_toDigits (by simp [hds, hd])
    simp [hn, hd]
  · rw [← List.cons_append, ← hds, List.takeWhile_append_of_pos fun c hc =>
      isDigit_of_mem_toDigits hc, takeWhile_of_follows hrest, List.append_nil]

/-- An integer that is not too long is read as it was written. -/
theorem parseNumber_toString {i : Int}
    (hlength : (Nat.toDigits 10 i.natAbs).length ≤ Text.maxDigits) {rest : List Char}
    (hrest : Follows rest) : parseNumber ((toString i).toList ++ rest) = .ok (.int i, rest) := by
  obtain ⟨d, ds, hds⟩ := List.exists_cons_of_ne_nil (Nat.toDigits_ne_nil (n := i.natAbs) (b := 10))
  have hdigit : isDigit d = true := isDigit_of_mem_toDigits (by rw [hds]; simp)
  have hdigits := digits_eq hds hrest
  have hdrop : (d :: (ds ++ rest)).drop (Nat.toDigits 10 i.natAbs).length = rest := by simp [hds]
  have hshort : ¬ Text.maxDigits < (Nat.toDigits 10 i.natAbs).length := by omega
  have hsign : d ≠ '-' := by
    rintro rfl
    cases hdigit
  rw [Int.toString_eq_repr, Int.repr_eq_if]
  by_cases hnegative : 0 ≤ i
  · have hnat : i.toNat = i.natAbs := by omega
    have hvalue : (i.natAbs : Int) = i := by omega
    rw [if_pos hnegative, hnat, Nat.toList_repr, hds, List.cons_append]
    simp only [parseNumber, List.cons.injEq, hsign, false_and, imp_self, implies_true, hdigit,
      hdigits, hdrop,
      parseFraction_of_follows hrest, parseExponent_of_follows hrest, natOfDigits_toDigits,
        hshort, hvalue,
      Bool.not_true, Bool.false_eq_true, if_false]
  · have hnat : (-i).toNat = i.natAbs := by omega
    have hvalue : -(i.natAbs : Int) = i := by omega
    rw [if_neg hnegative, hnat, String.toList_append, Nat.toList_repr, hds]
    change parseNumber ('-' :: d :: (ds ++ rest)) = _
    simp only [parseNumber, hdigit, hdigits, hdrop, parseFraction_of_follows hrest,
      parseExponent_of_follows hrest,
      natOfDigits_toDigits, hshort, hvalue, Bool.not_true, Bool.false_eq_true, if_false, if_true]

/-! ## Scalars -/

theorem parseValue_scalar (fuel : Nat) {c : Char} (hquote : c ≠ '"') (hbracket : c ≠ '[')
    (hbrace : c ≠ '\x7b') (cs : List Char) :
      parseValue (fuel + 1) (c :: cs) = parseScalar (c :: cs) := by
  simp only [parseValue, hquote, hbracket, hbrace, if_false]

/-- How the numeral of an integer begins. -/
theorem exists_toString (i : Int) :
    ∃ c cs, (toString i).toList = c :: cs ∧
      (isDigit c = true ∨ c = '-' ∧ ∃ d ds, cs = d :: ds ∧ isDigit d = true) := by
  rw [Int.toString_eq_repr, Int.repr_eq_if]
  have hdigits (n : Nat) : ∃ d ds, n.repr.toList = d :: ds ∧ isDigit d = true := by
    obtain ⟨d, ds, hds⟩ := List.exists_cons_of_ne_nil (Nat.toDigits_ne_nil (n := n) (b := 10))
    exact ⟨d, ds, by rw [Nat.toList_repr,
      hds], isDigit_of_mem_toDigits (n := n) (by rw [hds]; simp)⟩
  split
  · obtain ⟨d, ds, hds, hdigit⟩ := hdigits i.toNat
    exact ⟨d, ds, hds, .inl hdigit⟩
  · obtain ⟨d, ds, hds, hdigit⟩ := hdigits (-i).toNat
    exact ⟨'-', d :: ds, by simp [hds], .inr ⟨rfl, d, ds, rfl, hdigit⟩⟩

/-- What begins with a digit, or with a minus sign and a digit, is not the name of a value. -/
theorem parseScalar_toString {i : Int}
    (hlength : (Nat.toDigits 10 i.natAbs).length ≤ Text.maxDigits) {rest : List Char}
    (hrest : Follows rest) : parseScalar ((toString i).toList ++ rest) = .ok (.int i, rest) := by
  have hnames : ∀ m ∈ names, dropName? m.1 ((toString i).toList ++ rest) = none := by
    obtain ⟨c, cs, hcs, hc⟩ := exists_toString i
    rw [hcs]
    rcases hc with hdigit | ⟨rfl, d, ds, rfl, hdigit⟩
    · have hletter : 'n' ≠ c ∧ 't' ≠ c ∧ 'f' ≠ c ∧ 'N' ≠ c ∧ 'I' ≠ c ∧ '-' ≠ c := by
        refine ⟨?_, ?_, ?_, ?_, ?_, ?_⟩ <;> rintro rfl <;> cases hdigit
      simp [names, dropName?, hletter]
    · have hletter : 'I' ≠ d := by
        rintro rfl
        cases hdigit
      simp [names, dropName?, hletter]
  rw [parseScalar, List.findSome?_eq_none_iff.mpr fun m hm => by simp only [hnames m hm,
    Option.map_none]]
  exact parseNumber_toString hlength hrest

/-! ## Nested values -/

/-- A text that begins as the text of a value does. -/
def Begins (cs : List Char) : Prop :=
  ∃ c tail, cs = c :: tail ∧ isSpace c = false ∧ c ≠ ']' ∧ c ≠ '\uFEFF'

theorem Begins.append {cs : List Char} (h : Begins cs) (rest : List Char) :
    Begins (cs ++ rest) := by
  obtain ⟨c, tail, rfl, hc⟩ := h
  exact ⟨c, tail ++ rest, rfl, hc⟩

theorem Begins.skipSpace_eq {cs : List Char} (h : Begins cs) : skipSpace cs = cs := by
  obtain ⟨c, tail, rfl, hspace, -⟩ := h
  exact skipSpace_cons hspace tail

theorem skipSpace_space (cs : List Char) : skipSpace (' ' :: cs) = skipSpace cs := rfl

theorem renderItems_cons {v : Json} {items : List Json} (h : items ≠ []) :
    renderItems (v :: items) = render v ++ ", " ++ renderItems items := by
  cases items with
  | nil => exact absurd rfl h
  | cons v' items => rfl

theorem renderPairs_cons {m : CodeUnits × Json} {members : List (CodeUnits × Json)}
    (h : members ≠ []) :
    renderPairs (m :: members) = renderString m.1 ++ ": " ++ render m.2 ++ ", " ++
      renderPairs members := by
  cases members with
  | nil => exact absurd rfl h
  | cons m' members => rfl

theorem renderPairs_quote (m : CodeUnits × Json) (members : List (CodeUnits × Json)) :
    ∃ cs, (renderPairs (m :: members)).toList = '"' :: cs := by
  cases members <;> simp [renderPairs, renderString]

theorem parseValue_bracket (fuel : Nat) {cs : List Char} (h : Begins cs) :
    parseValue (fuel + 1) ('[' :: cs) = (parseItems fuel cs).map fun (items, rest) =>
      (.arr items, rest) := by
  rw [parseValue]
  dsimp only
  rw [if_neg (by decide), if_pos rfl, h.skipSpace_eq]
  obtain ⟨c, tail, rfl, -, hbracket, -⟩ := h
  split
  · next heq => exact absurd (List.cons.inj heq).1 hbracket
  · rfl

theorem parseValue_brace (fuel : Nat) (cs : List Char) :
    parseValue (fuel + 1) ('\x7b' :: '"' :: cs) =
    (parseMembers fuel [] ('"' :: cs)).map fun (members, rest) => (.obj members, rest) := rfl

/-- A value is read from its text as itself, whatever follows. -/
structure Returns (v : Json) : Prop where
  begins : Begins (render v).toList
  parses : ∀ (fuel : Nat) (rest : List Char), (render v).toList.length ≤ fuel → Follows rest →
    parseValue fuel ((render v).toList ++ rest) = .ok (v, rest)

theorem begins_renderItems {v : Json} {items : List Json} (h : Begins (render v).toList) :
    Begins (renderItems (v :: items)).toList := by
  cases items with
  | nil => exact h
  | cons v' items =>
    rw [renderItems_cons (by simp), String.toList_append, String.toList_append]
    exact (h.append _).append _

theorem parseItems_last {v : Json} (h : Returns v) {fuel : Nat}
    (hfuel : (render v).toList.length ≤ fuel) (rest : List Char) :
      parseItems (fuel + 1) ((render v).toList ++ ']' :: rest) = .ok ([v], rest) := by
  have hvalue := h.parses fuel (']' :: rest) hfuel (by simp [Follows])
  simp only [parseItems, hvalue, skipSpace_cons (c := ']') rfl]

theorem parseItems_next {v : Json} (h : Returns v) {fuel : Nat}
    (hfuel : (render v).toList.length ≤ fuel) (rest : List Char) :
      parseItems (fuel + 1) ((render v).toList ++ ',' :: ' ' :: rest) =
      (parseItems fuel (skipSpace rest)).map fun (items, rest) => (v :: items, rest) := by
  have hvalue := h.parses fuel (',' :: ' ' :: rest) hfuel (by simp [Follows])
  simp only [parseItems, hvalue, skipSpace_cons (c := ',') rfl, skipSpace_space]

theorem parseItems_renderItems {v : Json} {items : List Json} (h : ∀ v' ∈ v :: items, Returns v')
    {fuel : Nat} {rest : List Char} (hfuel : (renderItems (v :: items)).toList.length < fuel) :
    parseItems fuel ((renderItems (v :: items)).toList ++ ']' :: rest) =
      .ok (v :: items, rest) := by
  induction items generalizing v fuel with
  | nil =>
    obtain ⟨fuel, rfl⟩ : ∃ k, fuel = k + 1 := ⟨fuel - 1, by omega⟩
    exact parseItems_last (h v (by simp)) (Nat.le_of_lt_succ hfuel) rest
  | cons v' items ih =>
    obtain ⟨fuel, rfl⟩ : ∃ k, fuel = k + 1 := ⟨fuel - 1, by omega⟩
    have htext : (renderItems (v :: v' :: items)).toList ++ ']' :: rest =
        (render v).toList ++ ',' :: ' ' :: ((renderItems (v' :: items)).toList ++ ']' :: rest) := by
      simp [renderItems_cons]
    have hbegins : Begins ((renderItems (v' :: items)).toList ++ ']' :: rest) :=
      (begins_renderItems (h v' (by simp)).begins).append _
    have hcomma : 0 < (", " : String).toList.length := by decide
    simp only [renderItems_cons (List.cons_ne_nil v' items), String.toList_append,
      List.length_append] at hfuel
    rw [htext, parseItems_next (h v (by simp)) (by omega), hbegins.skipSpace_eq,
      ih (fun u hu => h u (by simp [hu])) (by omega)]
    rfl

/-- A member of an object and what follows it. -/
def member (m : CodeUnits × Json) (rest : List Char) : List Char :=
  '"' :: written m.1 (':' :: ' ' :: ((render m.2).toList ++ rest))

theorem parseMembers_last {m : CodeUnits × Json} (h : Returns m.2) {fuel : Nat}
    (hfuel : (render m.2).toList.length ≤ fuel) (seen : List (CodeUnits × Json))
    (rest : List Char) :
    parseMembers (fuel + 1) seen (member m ('\x7d' :: rest)) =
      .ok (setMember seen m.1 m.2, rest) := by
  have hvalue := h.parses fuel ('\x7d' :: rest) hfuel (by simp [Follows])
  simp only [parseMembers, member, parseString_written, skipSpace_cons (c := ':') rfl,
    skipSpace_space, (h.begins.append _).skipSpace_eq, hvalue, skipSpace_cons (c := '\x7d') rfl]

theorem parseMembers_next {m : CodeUnits × Json} (h : Returns m.2) {fuel : Nat}
    (hfuel : (render m.2).toList.length ≤ fuel) (seen : List (CodeUnits × Json))
    (rest : List Char) : parseMembers (fuel + 1) seen (member m (',' :: ' ' :: rest)) =
      parseMembers fuel (setMember seen m.1 m.2) (skipSpace rest) := by
  have hvalue := h.parses fuel (',' :: ' ' :: rest) hfuel (by simp [Follows])
  simp only [parseMembers, member, parseString_written, skipSpace_cons (c := ':') rfl,
    skipSpace_space, (h.begins.append _).skipSpace_eq, hvalue, skipSpace_cons (c := ',') rfl]

/-- The members of an object are read on top of those read so far. -/
theorem parseMembers_renderPairs {m : CodeUnits × Json} {members : List (CodeUnits × Json)}
    (h : ∀ m' ∈ m :: members, Returns m'.2) {fuel : Nat} {seen : List (CodeUnits × Json)}
    {rest : List Char} (hfuel : (renderPairs (m :: members)).toList.length < fuel) :
    parseMembers fuel seen ((renderPairs (m :: members)).toList ++ '\x7d' :: rest) =
      .ok ((m :: members).foldl (fun seen m => setMember seen m.1 m.2) seen, rest) := by
  induction members generalizing m fuel seen with
  | nil =>
    obtain ⟨fuel, rfl⟩ : ∃ k, fuel = k + 1 := ⟨fuel - 1, by omega⟩
    have htext : (renderPairs [m]).toList ++ '\x7d' :: rest = member m ('\x7d' :: rest) := by
      simp [renderPairs, renderString, written, member]
    have hvalue : (render m.2).toList.length ≤ fuel := by
      simp only [renderPairs, String.toList_append, List.length_append] at hfuel
      omega
    rw [htext, parseMembers_last (h m (by simp)) hvalue]
    rfl
  | cons m' members ih =>
    obtain ⟨fuel, rfl⟩ : ∃ k, fuel = k + 1 := ⟨fuel - 1, by omega⟩
    have htext : (renderPairs (m :: m' :: members)).toList ++ '\x7d' :: rest =
        member m (',' :: ' ' :: ((renderPairs (m' :: members)).toList ++ '\x7d' :: rest)) := by
      simp [renderPairs_cons, renderString, written, member]
    have hskip : skipSpace ((renderPairs (m' :: members)).toList ++ '\x7d' :: rest) =
        (renderPairs (m' :: members)).toList ++ '\x7d' :: rest := by
      obtain ⟨cs, hcs⟩ := renderPairs_quote m' members
      rw [hcs]
      exact skipSpace_cons rfl _
    have hcomma : 0 < (", " : String).toList.length := by decide
    simp only [renderPairs_cons (List.cons_ne_nil m' members), String.toList_append,
      List.length_append] at hfuel
    rw [htext, parseMembers_next (h m (by simp)) (by omega), hskip,
      ih (fun u hu => h u (by simp [hu])) (by omega)]
    rfl

namespace Returns

theorem of_begins {v : Json} {c : Char} {cs : List Char} (htext : (render v).toList = c :: cs)
    (hc : isSpace c = false ∧ c ≠ ']' ∧ c ≠ '\uFEFF')
    (h : ∀ (fuel : Nat) (rest : List Char), cs.length ≤ fuel → Follows rest →
      parseValue (fuel + 1) (c :: (cs ++ rest)) = .ok (v, rest)) : Returns v where
  begins := ⟨c, cs, htext, hc⟩
  parses fuel rest hfuel hrest := by
    rw [htext] at hfuel ⊢
    obtain ⟨fuel, rfl⟩ : ∃ k, fuel = k + 1 := ⟨fuel - 1, by simp at hfuel; omega⟩
    exact h fuel rest (by simpa using hfuel) hrest

theorem null : Returns .null := of_begins rfl (by decide) fun _ _ _ _ => rfl

theorem bool (b : Bool) : Returns (.bool b) := by
  cases b <;> exact of_begins rfl (by decide) fun _ _ _ _ => rfl

theorem int {i : Int} (h : (Nat.toDigits 10 i.natAbs).length ≤ Text.maxDigits) :
    Returns (.int i) := by
  obtain ⟨c, cs, hcs, hc⟩ := exists_toString i
  have hplain : c ≠ '"' ∧ c ≠ '[' ∧ c ≠ '\x7b' ∧ isSpace c = false ∧ c ≠ ']' ∧ c ≠ '\uFEFF' := by
    rcases hc with hdigit | ⟨rfl, -⟩
    · have hne {d : Char} (hd : isDigit d = false) : c ≠ d := fun heq => by simp [heq, hd] at hdigit
      have hspace : isSpace c = false := by
        simp [isSpace, hne (d := ' ') rfl, hne (d := '\t') rfl, hne (d := '\n') rfl,
          hne (d := '\r') rfl]
      exact ⟨hne rfl, hne rfl, hne rfl, hspace, hne rfl, hne rfl⟩
    · decide
  obtain ⟨hquote, hbracket, hbrace, hbegins⟩ := hplain
  refine of_begins hcs hbegins fun fuel rest _ hrest => ?_
  rw [parseValue_scalar fuel hquote hbracket hbrace, ← List.cons_append, ← hcs]
  exact parseScalar_toString h hrest

theorem str (s : CodeUnits) : Returns (.str s) := by
  have htext : (render (.str s)).toList = '"' :: written s [] := by
    simp [render, renderString, written]
  refine of_begins htext (by decide) fun fuel rest _ _ => ?_
  simpa [written] using parseValue_written fuel s rest

theorem arr {items : List Json} (h : ∀ v ∈ items, Returns v) : Returns (.arr items) := by
  have htext : (render (.arr items)).toList = '[' :: ((renderItems items).toList ++ [']']) := by
    simp [render]
  refine of_begins htext (by decide) fun fuel rest hfuel hrest => ?_
  cases items with
  | nil => rfl
  | cons v items =>
    have hbegins : Begins ((renderItems (v :: items)).toList ++ ']' :: rest) :=
      (begins_renderItems (h v (by simp)).begins).append _
    have hshort : (renderItems (v :: items)).toList.length < fuel := by
      simp only [List.length_append, List.length_singleton] at hfuel
      omega
    have hitems : parseItems fuel ((renderItems (v :: items)).toList ++ ']' :: rest) = _ :=
      parseItems_renderItems h hshort
    rw [List.append_assoc, List.singleton_append, parseValue_bracket fuel hbegins, hitems]
    rfl

theorem obj {members : List (CodeUnits × Json)} (nodup : (members.map Prod.fst).Nodup)
    (h : ∀ m ∈ members, Returns m.2) : Returns (.obj members) := by
  have htext : (render (.obj members)).toList = '\x7b' ::
      ((renderPairs members).toList ++ ['\x7d']) := by simp [render]
  refine of_begins htext (by decide) fun fuel rest hfuel hrest => ?_
  cases members with
  | nil => rfl
  | cons m members =>
    have hshort : (renderPairs (m :: members)).toList.length < fuel := by
      simp only [List.length_append, List.length_singleton] at hfuel
      omega
    have hmembers : parseMembers fuel [] ((renderPairs (m :: members)).toList ++ '\x7d' :: rest) =
        _ :=
      parseMembers_renderPairs h hshort
    have hfold : (m :: members).foldl (fun seen m => setMember seen m.1 m.2) [] = m :: members :=
      (foldl_setMember id (m :: members) [] nodup).trans (by simp)
    obtain ⟨cs, hcs⟩ := renderPairs_quote m members
    rw [hfold, hcs] at hmembers
    rw [hcs, List.append_assoc, List.singleton_append, List.cons_append,
      parseValue_brace, ← List.cons_append, hmembers]
    simp [Except.map]

end Returns

/-- Every readable value is read from its text as itself. -/
theorem returns {v : Json} (hread : v.Readable) (hfree : v.FloatFree) : Returns v := by
  induction hread with
  | null => exact .null
  | bool b => exact .bool b
  | int h => exact .int h
  | float x => cases hfree
  | str s => exact .str s
  | arr h ih =>
    cases hfree with
    | arr hfree => exact .arr fun v hv => ih v hv (hfree v hv)
  | obj nodup h ih =>
    cases hfree with
    | obj hfree => exact .obj nodup fun m hm => ih m hm (hfree m hm)

/-- Every readable value without floating-point numbers is read as it was written. -/
theorem parse_render {v : Json} (hread : v.Readable) (hfree : v.FloatFree) :
    parse (render v) = .ok v := by
  obtain ⟨hbegins, hparses⟩ := returns hread hfree
  have hvalue := hparses (2 * (render v).toList.length + 2) [] (by omega) (by simp [Follows])
  rw [List.append_nil] at hvalue
  unfold parse
  dsimp only
  split
  · next hmark =>
    obtain ⟨c, tail, hcs, -, -, hc⟩ := hbegins
    rw [hcs] at hmark
    exact absurd (List.cons.inj hmark).1 hc
  · rw [hbegins.skipSpace_eq, hvalue]
    rfl

/-! ## What is read -/

theorem mem_setMember {members : List (CodeUnits × Json)} {key : CodeUnits} {value : Json}
    {m : CodeUnits × Json} (h : m ∈ setMember members key value) : m ∈ members ∨ m.2 = value := by
  induction members with
  | nil => simp_all [setMember]
  | cons m' members ih =>
    rw [setMember] at h
    split at h <;> grind

/-- A number has no more digits than it is read from. -/
theorem length_toDigits_natOfDigits {ds : List Char} (hdigits : ∀ c ∈ ds, isDigit c = true)
    (hne : ds ≠ []) : (Nat.toDigits 10 (natOfDigits ds)).length ≤ ds.length := by
  have hbound (n : Nat) : ds.foldl (fun n c => 10 * n + (c.toNat - 48)) n < (n + 1) * 10 ^
      ds.length := by
    clear hne
    induction ds generalizing n with
    | nil => simp
    | cons c ds ih =>
      have hc : c.toNat - 48 ≤ 9 := by
        have := hdigits c (by simp)
        simp only [isDigit, Bool.and_eq_true, decide_eq_true_eq] at this
        omega
      have hrest := ih (fun c hc => hdigits c (by simp [hc])) (10 * n + (c.toNat - 48))
      have hstep : (10 * n + (c.toNat - 48) + 1) * 10 ^ ds.length ≤ (n + 1) * 10 * 10 ^ ds.length :=
        Nat.mul_le_mul_right _ (by omega)
      rw [List.foldl_cons, List.length_cons, Nat.pow_succ']
      calc _ < _ := hrest
        _ ≤ _ := hstep
        _ = _ := Nat.mul_assoc _ _ _
  have hvalue := hbound 0
  rw [Nat.zero_add, Nat.one_mul] at hvalue
  exact (Nat.length_toDigits_le_iff (by decide) (List.length_pos_iff.mpr hne)).mpr hvalue

theorem readable_parseNumber {cs rest : List Char} {v : Json} (h : parseNumber cs = .ok (v, rest)) :
    v.Readable := by
  unfold parseNumber at h
  split at h
  next negative cs _ =>
  split at h
  · cases h
  · next d tail _ =>
    split at h
    · cases h
    · next hdigit =>
      dsimp only at h
      generalize hds : (if d = '0' then [d] else (d :: tail).takeWhile isDigit) = ds at h
      have hdigits : (∀ c ∈ ds, isDigit c = true) ∧ ds ≠ [] := by
        have hd : isDigit d = true := by simpa using hdigit
        rw [← hds]
        split
        · simp [hd]
        · exact ⟨fun c hc => List.all_eq_true.mp List.all_takeWhile c hc, by simp [hd]⟩
      split at h
      · split at h
        · cases h
        · next hlength =>
          have hsize := length_toDigits_natOfDigits hdigits.1 hdigits.2
          cases h
          refine .int ?_
          split <;> simp only [Int.natAbs_neg, Int.natAbs_natCast] <;> omega
      · cases h
        exact .float _

theorem readable_parseScalar {cs rest : List Char} {v : Json} (h : parseScalar cs = .ok (v, rest)) :
    v.Readable := by
  have hnames : ∀ m ∈ names, m.2.Readable := by
    simp only [names, List.forall_mem_cons, List.not_mem_nil, false_implies, implies_true, and_true]
    exact ⟨.null, .bool _, .bool _, .float _, .float _, .float _⟩
  unfold parseScalar at h
  split at h
  · next found hfound =>
    obtain ⟨m, hmem, hname⟩ := List.exists_of_findSome?_eq_some hfound
    obtain ⟨rest', -, rfl⟩ := Option.map_eq_some_iff.mp hname
    cases h
    exact hnames m hmem
  · exact readable_parseNumber h

/-- What is read, with so much fuel, is readable. -/
structure ReadsReadable (fuel : Nat) : Prop where
  value : ∀ {cs rest v}, parseValue fuel cs = .ok (v, rest) → v.Readable
  items : ∀ {cs rest vs}, parseItems fuel cs = .ok (vs, rest) → ∀ v ∈ vs, Readable v
  members : ∀ {seen cs rest ms}, parseMembers fuel seen cs = .ok (ms, rest) →
    (seen.map Prod.fst).Nodup →
    (∀ m ∈ seen, Readable m.2) → (ms.map Prod.fst).Nodup ∧ ∀ m ∈ ms, Readable m.2

namespace ReadsReadable

variable {fuel : Nat} (h : ReadsReadable fuel)

include h

theorem parseValue_succ {cs rest : List Char} {v : Json}
    (hv : parseValue (fuel + 1) cs = .ok (v, rest)) : v.Readable := by
  unfold parseValue at hv
  split at hv
  · cases hv
  simp only [Except.map] at hv
  split at hv
  · split at hv <;> cases hv
    exact .str _
  split at hv
  · split at hv
    · cases hv
      exact .arr (by simp)
    split at hv <;> cases hv
    next hitems => exact .arr (h.items hitems)
  split at hv
  · split at hv
    · cases hv
      exact .obj (by simp) (by simp)
    split at hv <;> cases hv
    next hmembers =>
    obtain ⟨hnodup, hread⟩ := h.members hmembers (by simp) (by simp)
    exact .obj hnodup hread
  · exact readable_parseScalar hv

theorem parseItems_succ {cs rest : List Char} {vs : List Json}
    (hvs : parseItems (fuel + 1) cs = .ok (vs, rest)) : ∀ v ∈ vs, Readable v := by
  unfold parseItems at hvs
  split at hvs
  · cases hvs
  next v _ hv =>
  have hfirst := h.value hv
  split at hvs
  · cases hvs
    simpa using hfirst
  · simp only [Except.map] at hvs
    split at hvs <;> cases hvs
    next hitems => exact List.forall_mem_cons.mpr ⟨hfirst, h.items hitems⟩
  · cases hvs

theorem parseMembers_succ {seen ms : List (CodeUnits × Json)} {cs rest : List Char}
    (hms : parseMembers (fuel + 1) seen cs = .ok (ms, rest)) (hnodup : (seen.map Prod.fst).Nodup)
    (hseen : ∀ m ∈ seen, Readable m.2) : (ms.map Prod.fst).Nodup ∧ ∀ m ∈ ms, Readable m.2 := by
  unfold parseMembers at hms
  split at hms
  · split at hms
    · cases hms
    next key _ _ =>
    split at hms
    · split at hms
      · cases hms
      next v _ hv =>
      have hmore : ∀ m ∈ setMember seen key v, Readable m.2 := fun m hm =>
        (mem_setMember hm).elim (hseen m) fun heq => heq ▸ h.value hv
      split at hms
      · cases hms
        exact ⟨nodup_setMember hnodup key v, hmore⟩
      · exact h.members hms (nodup_setMember hnodup key v) hmore
      · cases hms
    · cases hms
  · cases hms

end ReadsReadable

theorem readsReadable (fuel : Nat) : ReadsReadable fuel := by
  induction fuel with
  | zero =>
    constructor
    all_goals
      intros
      simp_all [parseValue, parseItems, parseMembers, failAt]
  | succ fuel ih => exact ⟨ih.parseValue_succ, ih.parseItems_succ, ih.parseMembers_succ⟩

/-- What is read from a text is readable. -/
theorem readable_of_parse {source : String} {v : Json} (h : parse source = .ok v) : v.Readable := by
  unfold parse at h
  dsimp only at h
  split at h
  · cases h
  split at h
  · cases h
  next hv =>
  split at h <;> cases h
  exact (readsReadable _).value hv

/-! ## ASCII -/

/-- A text of nothing but printable ASCII characters. -/
def IsAscii (s : String) : Prop := ∀ c ∈ s.toList, 0x20 ≤ c.toNat ∧ c.toNat < 0x7F

instance (s : String) : Decidable (IsAscii s) := List.decidableBAll _ _

theorem IsAscii.append {s t : String} (hs : IsAscii s) (ht : IsAscii t) : IsAscii (s ++ t) := by
  intro c hc
  rw [String.toList_append, List.mem_append] at hc
  exact hc.elim (hs c) (ht c)

theorem isAscii_renderString (s : CodeUnits) : IsAscii (renderString s) := by
  have hunits : IsAscii (String.ofList (s.flatMap escapeUnit)) := by
    intro c hc
    obtain ⟨u, -, hu⟩ := List.mem_flatMap.mp (String.toList_ofList ▸ hc)
    exact isPrintable_escapeUnit u c hu
  exact (IsAscii.append (by decide) hunits).append (by decide)

theorem isAscii_toString (i : Int) : IsAscii (toString i) := by
  have hdigits (n : Nat) : IsAscii n.repr := by
    intro c hc
    rw [Nat.toList_repr] at hc
    have hdigit := isDigit_of_mem_toDigits hc
    simp only [isDigit, Bool.and_eq_true, decide_eq_true_eq] at hdigit
    omega
  rw [Int.toString_eq_repr, Int.repr_eq_if]
  split
  · exact hdigits _
  · exact IsAscii.append (by decide) (hdigits _)

theorem isAscii_renderItems {items : List Json} (h : ∀ v ∈ items, IsAscii (render v)) :
    IsAscii (renderItems items) := by
  induction items with
  | nil => decide
  | cons v items ih =>
    obtain ⟨hfirst, hrest⟩ := List.forall_mem_cons.mp h
    by_cases hnil : items = []
    · subst hnil
      exact hfirst
    · rw [renderItems_cons hnil]
      exact (hfirst.append (by decide)).append (ih hrest)

theorem isAscii_renderPairs {members : List (CodeUnits × Json)}
    (h : ∀ m ∈ members, IsAscii (render m.2)) : IsAscii (renderPairs members) := by
  induction members with
  | nil => decide
  | cons m members ih =>
    obtain ⟨hfirst, hrest⟩ := List.forall_mem_cons.mp h
    have hmember : IsAscii (renderString m.1 ++ ": " ++ render m.2) :=
      ((isAscii_renderString m.1).append (by decide)).append hfirst
    by_cases hnil : members = []
    · subst hnil
      exact hmember
    · rw [renderPairs_cons hnil]
      exact (hmember.append (by decide)).append (ih hrest)

/-- A value without floating-point numbers is written in ASCII. -/
theorem isAscii_render {v : Json} (h : v.FloatFree) : IsAscii (render v) := by
  induction h with
  | null => decide
  | bool b => cases b <;> decide
  | int i => exact isAscii_toString i
  | str s => exact isAscii_renderString s
  | arr _ ih => exact (IsAscii.append (by decide) (isAscii_renderItems ih)).append (by decide)
  | obj _ ih => exact (IsAscii.append (by decide) (isAscii_renderPairs ih)).append (by decide)

end CommandShell.Json
