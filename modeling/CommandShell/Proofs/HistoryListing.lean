import CommandShell.Proofs.Builtin.Reply
import CommandShell.Proofs.Text.Integer
import CommandShell.Shell

/-!
# Showing the history

The builtin `history` lists the entries with their numbers, all of them or only the last ones. The
last ones have the lines that they have in the whole listing, since they are numbered from where
they stand and a number takes as many columns whatever stands before it.

## Main definitions

* `Builtin.Lists`: the listing of a whole history.
* `Builtin.ShowsLast`: the last lines of it.
* `Builtin.Refuses`: an argument is reported instead.

## Main statements

* `History.numbered_some`: the last entries keep their numbers.
* `Builtin.showsLast_of_denotes`: what is shown for a text that stands for a number.
* `Builtin.history_shows_last`: what `history` shows for every argument that is no flag.
-/

namespace CommandShell

namespace History

/-- Numbering goes on behind the entries that are left out. -/
theorem numberFrom_drop (start n : Nat) (entries : List String) :
    numberFrom (start + n) (entries.drop n) = (numberFrom start entries).drop n := by
  apply List.ext_getElem?
  intro i
  simp only [numberFrom, List.getElem?_mapIdx, List.getElem?_drop]
  rw [show start + n + i + 1 = start + (n + i) + 1 by omega]

/-- The last entries keep the numbers that they have among all. -/
theorem numbered_some (h : History) (k : Int) :
    h.numbered (some k) = (h.numbered none).drop ((h.entries.length : Int) - k).toNat := by
  have hdrop := numberFrom_drop 0 ((h.entries.length : Int) - k).toNat h.entries
  rwa [Nat.zero_add] at hdrop

theorem getElem?_numbered (h : History) (i : Nat) :
    (h.numbered none)[i]? = h.entries[i]?.map fun entry => (i + 1, entry) := by
  simp [numbered, numberFrom, List.getElem?_mapIdx]

end History

namespace Builtin

/-- A number is written at the right end of five columns, or of as many as it takes. -/
theorem column_eq (n : Nat) :
    column n = String.ofList (List.replicate (5 - (toString n).length) ' ') ++ toString n := by
  have hlength : (toString n).length = (Nat.toDigits 10 n).length := by
    rw [Nat.toString_eq_repr, ← String.length_toList, Nat.toList_repr]
  rw [column, hlength, String.ofList_append, ← Nat.toList_repr, String.ofList_toList,
    Nat.toString_eq_repr]

variable (s : Session)

/-- The listing of a whole history: a line for each entry, which begins with the number of the
entry, counted from 1 and written at the right end of five columns or as many as it takes. -/
structure Lists (r : Reply) : Prop where
  length : r.writes.length = s.history.entries.length
  line : ∀ i entry, s.history.entries[i]? = some entry → r.writes[i]? =
    some (.out, String.ofList (List.replicate (5 - (toString (i + 1)).length) ' ') ++
      toString (i + 1) ++ "  " ++ entry ++ "\n")
  ending : r.ending = .ok 0
  session : r.session = s

/-- The last lines of a listing, as many as a number says if there are so many. -/
structure ShowsLast (listed : List Emission) (k : Nat) (r : Reply) : Prop where
  writes : r.writes <:+ listed
  length : r.writes.length = min k listed.length
  ending : r.ending = .ok 0
  session : r.session = s

/-- An argument that is reported, while nothing is listed. -/
structure Refuses (argument : String) (r : Reply) : Prop where
  writes : r.writes = [(.err, "history: " ++ argument ++ ": numeric argument required\n")]
  ending : r.ending = .ok 1
  session : r.session = s

theorem lists_runHistory : Lists s (runHistory s []) where
  length := by simp [runHistory, success, listing, History.numbered, History.numberFrom]
  line := by
    intro i entry hentry
    simp [runHistory, success, listing, History.getElem?_numbered, hentry, column_eq]
  ending := rfl
  session := rfl

variable {s} {first : String} {i : Int}

/-- What is neither a flag nor the argument that clears the history is read as a number. -/
theorem runHistory_of_not_mem (h : first ∉ ["-c", "-r", "-w", "-a"]) (rest : List String) :
    runHistory s (first :: rest) = match Text.integer? first with
      | none => failure s ("history: " ++ first ++ ": numeric argument required")
      | some count => success s (listing (s.history.numbered (some (max count 0)))) := by
  have hflag : historyFlag? first = none := by
    unfold historyFlag?
    split <;> simp_all
  unfold runHistory
  split
  · contradiction
  · simp_all
  · next heq =>
    cases heq
    cases Text.integer? first <;> simp only [hflag]

theorem not_mem_of_denotes (h : Text.Denotes first i) : first ∉ ["-c", "-r", "-w", "-a"] := by
  have hnone : ∀ flag ∈ ["-c", "-r", "-w", "-a"], Text.integer? flag = none := by decide +kernel
  intro hmem
  have hread := Text.integer?_eq_some_iff.mpr h
  rw [hnone first hmem] at hread
  cases hread

theorem showsLast_of_denotes (h : Text.Denotes first i) (rest : List String) :
    ShowsLast s (runHistory s []).writes i.toNat (runHistory s (first :: rest)) := by
  have hrun : runHistory s (first :: rest) =
      success s (listing (s.history.numbered (some (max i 0)))) := by
    rw [runHistory_of_not_mem (not_mem_of_denotes h), Text.integer?_eq_some_iff.mpr h]
  have hwrites : (runHistory s (first :: rest)).writes =
      (runHistory s []).writes.drop ((s.history.entries.length : Int) - max i 0).toNat := by
    rw [hrun]
    change listing _ = (listing _).drop _
    rw [History.numbered_some, listing, listing, List.map_drop]
  refine ⟨hwrites ▸ List.drop_suffix _ _, ?_, by rw [hrun]; rfl, by rw [hrun]; rfl⟩
  rw [hwrites, List.length_drop, (lists_runHistory s).length]
  omega

theorem refuses_of_not_denotes (hflags : first ∉ ["-c", "-r", "-w", "-a"])
    (h : ∀ i, ¬ Text.Denotes first i) (rest : List String) :
      Refuses s first (runHistory s (first :: rest)) := by
  rw [runHistory_of_not_mem hflags, Text.integer?_eq_none_iff.mpr h]
  exact ⟨by simp [failure, String.append_assoc], rfl, rfl⟩

theorem ShowsLast.writes_eq_nil {listed : List Emission} {r : Reply} (h : ShowsLast s listed 0 r) :
    r.writes = [] := by
  have hlength := h.length
  rw [Nat.zero_min] at hlength
  exact List.eq_nil_of_length_eq_zero hlength

/-- A negative number in decimal is no flag. -/
theorem not_mem_of_neg (h : i < 0) : toString i ∉ ["-c", "-r", "-w", "-a"] := by
  have hletter : ∀ flag ∈ ["-c", "-r", "-w", "-a"], flag.toList.tail.all Char.isDigit = false := by
    decide +kernel
  intro hmem
  have hdigits : (toString i).toList.tail.all Char.isDigit = true := by
    rw [Text.toList_toString_of_neg h, List.tail_cons, List.all_eq_true]
    intro c hc
    exact Nat.isDigit_of_mem_toDigits (by decide) (by decide) hc
  rw [hletter _ hmem] at hdigits
  cases hdigits

/-- Nothing is listed for a negative number, whether or not it has too many digits to be read. -/
theorem err_of_neg (h : i < 0) (rest : List String) :
    ∀ e ∈ (runHistory s (toString i :: rest)).writes, e.1 = .err := by
  by_cases hread : ∃ j, Text.Denotes (toString i) j
  · obtain ⟨j, hj⟩ := hread
    have hshown := showsLast_of_denotes (s := s) hj rest
    rw [Int.toNat_of_nonpos (hj.nonpos (Text.toList_toString_of_neg h))] at hshown
    rw [hshown.writes_eq_nil]
    simp
  · have hrefused :=
      refuses_of_not_denotes (s := s) (not_mem_of_neg h) (fun j hj => hread ⟨j, hj⟩) rest
    rw [hrefused.writes]
    simp

/-- What `history` shows. Without arguments it lists the whole history. For a text that stands for a
number it lists the last entries, as many as the number says, with the same lines as in the whole
listing; for a negative one that is nothing. The decimal text of a number is such a text unless it
has too many digits. Any other text that is no flag is reported and nothing is listed. The session
stays as it was. -/
theorem history_shows_last (capture : Capture) (s : Session) (rest : List String) :
    let whole := history.run capture s []
    let shown (first : String) := history.run capture s (first :: rest)
    Lists s whole ∧
      (∀ k : Nat, (toString k).length ≤ Text.maxDigits →
        ShowsLast s whole.writes k (shown (toString k))) ∧
      (∀ first i, Text.Denotes first i → ShowsLast s whole.writes i.toNat (shown first)) ∧
      (∀ i : Int, i < 0 → (∀ e ∈ (shown (toString i)).writes, e.1 = .err) ∧
        ((toString i.natAbs).length ≤ Text.maxDigits → (shown (toString i)).writes = [])) ∧
      ∀ first, first ∉ ["-c", "-r", "-w", "-a"] → (∀ i, ¬ Text.Denotes first i) →
        Refuses s first (shown first) := by
  intro whole shown
  have hwhole : whole = runHistory s [] := run_eq_of_take rfl
  have hshown (first : String) : shown first = runHistory s (first :: rest) := run_eq_of_take rfl
  have hlast (first : String) (i : Int) (h : Text.Denotes first i) :
      ShowsLast s whole.writes i.toNat (shown first) := by
    rw [hwhole, hshown]
    exact showsLast_of_denotes h rest
  refine ⟨hwhole ▸ lists_runHistory s, ?natural, hlast, fun i hi =>
    ⟨?negative, ?unlisted⟩, ?refused⟩
  case natural =>
    intro k hk
    exact hlast (toString k) k (Text.denotes_toString (i := k) hk)
  case negative =>
    rw [hshown]
    exact err_of_neg hi rest
  case unlisted =>
    intro hshort
    have hnone := hlast _ i (Text.denotes_toString hshort)
    rw [Int.toNat_of_nonpos (Int.le_of_lt hi)] at hnone
    exact hnone.writes_eq_nil
  case refused =>
    intro first hflags h
    rw [hshown]
    exact refuses_of_not_denotes hflags h rest

/-- The last two of three entries are shown with their own numbers, nothing is shown for a negative
number, and a word is reported. -/
theorem history_shows_last_two :
    let s : Session := {
      cwd := Path.ofParts []
      history := { entries := ["a", "b", "c"] }
      world := {}
      machine := ⟨fun _ _ _ => .error .notFound⟩ }
    let shown (first : String) := (history.run (Shell.capture 0) s [first]).writes
    ((toString 2).length ≤ Text.maxDigits ∧
      shown "2" = [(.out, "    2  b\n"), (.out, "    3  c\n")]) ∧
      ((toString (-7 : Int).natAbs).length ≤ Text.maxDigits ∧ shown "-7" = []) ∧
      ((∀ i, ¬ Text.Denotes "two" i) ∧
        shown "two" = [(.err, "history: two: numeric argument required\n")]) := by
  intro s shown
  obtain ⟨-, hlast, -, hnegative, hrefused⟩ := history_shows_last (Shell.capture 0) s []
  have htwo : (toString 2).length ≤ Text.maxDigits := by decide +kernel
  have hseven : (toString (-7 : Int).natAbs).length ≤ Text.maxDigits := by decide +kernel
  have hword : ∀ i, ¬ Text.Denotes "two" i := Text.integer?_eq_none_iff.mp (by decide +kernel)
  have hlisted : (history.run (Shell.capture 0) s []).writes =
      [(.out, "    1  a\n"), (.out, "    2  b\n"), (.out, "    3  c\n")] := by decide +kernel
  have hsuffix := hlast 2 htwo
  have hnone := (hnegative (-7) (by decide)).2 hseven
  have hdrop := List.suffix_iff_eq_drop.mp hsuffix.writes
  rw [hsuffix.length, hlisted] at hdrop
  rw [show toString 2 = "2" by decide +kernel] at hdrop
  rw [show toString (-7 : Int) = "-7" by decide +kernel] at hnone
  have hreported := (hrefused "two" (by decide) hword).writes
  exact ⟨⟨htwo, hdrop⟩, ⟨hseven, hnone⟩, hword, hreported.trans (by decide +kernel)⟩

end Builtin

end CommandShell
