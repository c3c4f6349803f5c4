import CommandShell.Text.Order
import Mathlib.Data.List.Sort
import Mathlib.Data.String.Basic

/-!
# Texts in order

The order of texts by their code points is the lexicographic one. What stands between two texts with
a common start has that start too, so that the first and the last of some texts in order tell what
all of them share.

## Main statements

* `Text.mem_inOrder`, `Text.pairwise_inOrder`: texts are put in strictly increasing order, and none
  is lost.
* `Text.isPrefix_of_le_of_le`: a common start of two texts is one of those between them.
-/

namespace CommandShell.Text

theorem before_iff {as bs : List Char} : before as bs = true ↔ ¬ bs < as := by
  induction as generalizing bs with
  | nil => simp [before]
  | cons a as ih =>
    cases bs with
    | nil => simp [before]
    | cons b bs =>
      have hlt : a.toNat < b.toNat ↔ a < b := Iff.rfl
      rw [before, List.cons_lt_cons_iff, Bool.or_eq_true, Bool.and_eq_true, decide_eq_true_iff,
        beq_iff_eq, ih, hlt]
      grind

/-! ## Order without repetitions -/

/-- Equal neighbours are made one. -/
theorem foldr_eachOnce {names : List String} (h : names.Pairwise (· ≤ ·)) :
    let kept :=
      names.foldr (fun name rest => if rest.head? = some name then rest else name :: rest) []
    (∀ name, name ∈ kept ↔ name ∈ names) ∧ kept.Pairwise (· < ·) := by
  induction names with
  | nil => simp
  | cons name names ih =>
    obtain ⟨hleast, hnames⟩ := List.pairwise_cons.mp h
    obtain ⟨hmem, hkept⟩ := ih hnames
    rw [List.foldr_cons]
    generalize names.foldr _ [] = kept at hmem hkept ⊢
    dsimp only
    split
    · next hhead =>
      have hagain : name ∈ names := (hmem name).mp (List.mem_of_mem_head? hhead)
      exact ⟨fun other => by rw [hmem, List.mem_cons]; grind, hkept⟩
    · next hhead =>
      refine ⟨fun other => by simp [hmem], List.pairwise_cons.mpr ⟨fun other hother => ?_, hkept⟩⟩
      refine lt_of_le_of_ne (hleast other ((hmem other).mp hother)) ?_
      rintro rfl
      -- the name would be the first one that is kept
      cases kept with
      | nil => cases hother
      | cons first rest =>
        have hfirst : name ≤ first := hleast first ((hmem first).mp (by simp))
        rcases List.mem_cons.mp hother with rfl | hrest
        · simp at hhead
        · exact absurd (List.rel_of_pairwise_cons hkept hrest) (not_lt_of_ge hfirst)

theorem pairwise_mergeSort_before (names : List String) :
    (names.mergeSort fun a b => before a.toList b.toList).Pairwise (· ≤ ·) := by
  have hle (a b : String) : before a.toList b.toList = true ↔ a ≤ b :=
    before_iff.trans (not_lt (a := b))
  refine List.Pairwise.imp (fun h => (hle _ _).mp h) (List.pairwise_mergeSort ?_ ?_ names)
  · exact fun a b c hab hbc => (hle a c).mpr (le_trans ((hle a b).mp hab) ((hle b c).mp hbc))
  · intro a b
    rw [Bool.or_eq_true, hle, hle]
    exact le_total a b

theorem mem_inOrder {name : String} {names : List String} : name ∈ inOrder names ↔ name ∈ names :=
  ((foldr_eachOnce (pairwise_mergeSort_before names)).1 name).trans List.mem_mergeSort

theorem pairwise_inOrder (names : List String) : (inOrder names).Pairwise (· < ·) :=
  (foldr_eachOnce (pairwise_mergeSort_before names)).2

/-! ## Common starts -/

/-- What stands between two texts with a common start has the start too. -/
theorem isPrefix_of_le_of_le {start first between last : List Char} (hfirst : start <+: first)
    (hlast : start <+: last) (hle : first ≤ between) (hle' : between ≤ last) :
      start <+: between := by
  induction start generalizing first between last with
  | nil => exact List.nil_prefix
  | cons c start ih =>
    obtain ⟨first, rfl⟩ := hfirst
    obtain ⟨last, rfl⟩ := hlast
    rw [List.cons_append, ← not_lt] at hle hle'
    cases between with
    | nil => exact absurd (List.nil_lt_cons ..) hle
    | cons b between =>
      rw [List.cons_lt_cons_iff, not_or] at hle hle'
      -- the two ends have one first character, so it is that of the text between them
      obtain rfl : c = b := le_antisymm (not_lt.mp hle.1) (not_lt.mp hle'.1)
      simp only [true_and, not_lt] at hle hle'
      exact List.cons_prefix_cons.mpr ⟨rfl,
        ih (List.prefix_append ..) (List.prefix_append ..) hle.2 hle'.2⟩

end CommandShell.Text
