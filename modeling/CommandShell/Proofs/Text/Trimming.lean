import CommandShell.Text.Blank
import Mathlib.Data.List.DropRight
import Mathlib.Data.List.TakeWhile

/-!
# Trimming

What is left of a text when characters of one kind are removed from both of its ends. Blanks are
removed so from a line and from the segments of a line, and another class of white space from a text
that is read as an integer.

## Main statements

- `Text.exists_trimmed`: nothing else is removed.
- `Text.trimmed_around`: what stands around is removed with the rest.
- `Text.trimmed_eq_self`: nothing is removed if both ends are of another kind.
-/

namespace CommandShell.Text

variable {α : Type} {p : α → Bool}

/-- What is left when elements of a kind are removed from both ends. -/
def trimmed (p : α → Bool) (as : List α) : List α := (as.dropWhile p).rdropWhile p

theorem stripChars_eq_trimmed (cs : List Char) : stripChars cs = trimmed isBlank cs := rfl

/-- Nothing else is removed. -/
theorem exists_trimmed (p : α → Bool) (as : List α) :
    ∃ before after, as = before ++ trimmed p as ++ after ∧ (∀ a ∈ before, p a = true) ∧ ∀ a ∈ after,
      p a = true := by
  refine ⟨as.takeWhile p, (as.dropWhile p).rtakeWhile p, ?_, ?_, ?_⟩
  · rw [trimmed, List.append_assoc, List.rdropWhile_append_rtakeWhile,
      List.takeWhile_append_dropWhile]
  · exact fun a ha => List.all_eq_true.mp List.all_takeWhile a ha
  · exact fun a ha => List.mem_rtakeWhile_imp ha

/-- What stands around is removed with the rest. -/
theorem trimmed_around {before after : List α} (hbefore : ∀ a ∈ before, p a = true)
    (hafter : ∀ a ∈ after, p a = true) (as : List α) :
      trimmed p (before ++ (as ++ after)) = trimmed p as := by
  have hend (as : List α) : (as ++ after).rdropWhile p = as.rdropWhile p := by
    rw [List.rdropWhile, List.rdropWhile, List.reverse_append,
      List.dropWhile_append_of_pos fun a ha => hafter a (List.mem_reverse.mp ha)]
  rw [trimmed, trimmed, List.dropWhile_append_of_pos hbefore, List.dropWhile_append]
  split
  · next hnone => rw [List.isEmpty_iff.mp hnone, List.dropWhile_eq_nil_iff.mpr hafter]
  · exact hend _

/-- Nothing is removed if both ends are of another kind. -/
theorem trimmed_eq_self {as : List α} (hhead : ∀ a ∈ as.head?, p a = false)
    (hlast : ∀ a ∈ as.getLast?, p a = false) : trimmed p as = as := by
  have hfront : as.dropWhile p = as := by
    cases as with
    | nil => rfl
    | cons a as => exact List.dropWhile_cons_of_neg (by simpa using hhead a rfl)
  rw [trimmed, hfront, List.rdropWhile_eq_self_iff]
  intro hne
  simpa using hlast _ (List.getLast?_eq_some_getLast hne)

/-- Nothing is left just if all elements are of the kind. -/
theorem trimmed_eq_nil_iff {as : List α} : trimmed p as = [] ↔ ∀ a ∈ as, p a = true := by
  rw [trimmed, List.rdropWhile_eq_nil_iff]
  constructor
  · intro h
    by_cases hfront : as.dropWhile p = []
    · exact List.dropWhile_eq_nil_iff.mp hfront
    · -- the first element that is left is of another kind
      have hhead := List.head_dropWhile_not p hfront
      simp_all [h _ (List.head_mem hfront)]
  · intro h a ha
    exact h a ((List.dropWhile_sublist p).mem ha)

/-- What is left does not end in such an element. -/
theorem getLast?_trimmed {as : List α} {a : α} (h : (trimmed p as).getLast? = some a) :
    p a = false := by
  have hne : (as.dropWhile p).rdropWhile p ≠ [] := by
    intro hnil
    rw [trimmed, hnil] at h
    cases h
  have hlast := List.rdropWhile_last_not p _ hne
  rw [trimmed, List.getLast?_eq_some_getLast hne] at h
  cases h
  simpa using hlast

end CommandShell.Text
