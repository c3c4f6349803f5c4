/-!
# Parts between separators

A list is cut at the elements that a test picks; parts may be empty, and there is always one.
-/

namespace CommandShell.Text

/-- The parts of a list between the elements that a test picks. -/
def cutWhere {α : Type} (isBorder : α → Bool) : List α → List (List α)
  | [] => [[]]
  | a :: rest =>
    if isBorder a then [] :: cutWhere isBorder rest
    else
      match cutWhere isBorder rest with
      | [] => [[a]]
      | first :: others => (a :: first) :: others

/-- The parts of a text between the places where a character stands. -/
def partsAt (separator : Char) (text : String) : List String :=
  (cutWhere (· == separator) text.toList).map String.ofList

theorem cutWhere_ne_nil {α : Type} (isBorder : α → Bool) (as : List α) :
    cutWhere isBorder as ≠ [] := by
  cases as with
  | nil => simp [cutWhere]
  | cons a rest =>
    rw [cutWhere]
    split
    · simp
    · split <;> simp

end CommandShell.Text
