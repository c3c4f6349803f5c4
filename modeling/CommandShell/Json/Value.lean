import CommandShell.Number.Binary64
import CommandShell.Text.CodeUnits

/-!
# JSON values

A text is a sequence of code units, because it need not consist of whole characters. An object keeps
its members in the order in which their keys first appeared; a later member with the same key
replaces the value and keeps the place.
-/

namespace CommandShell

inductive Json where
  | null
  | bool (b : Bool)
  | int (i : Int)
  | float (x : Binary64)
  | str (s : CodeUnits)
  | arr (items : List Json)
  | obj (members : List (CodeUnits × Json))
  deriving Inhabited

namespace Json

/-- Give a key a value: in its old place if the key is there, else at the end. -/
def setMember {α : Type} (members : List (CodeUnits × α)) (key : CodeUnits) (value : α) :
    List (CodeUnits × α) :=
  match members with
  | [] => [(key, value)]
  | (k, v) :: rest => if k = key then (k, value) :: rest else (k, v) :: setMember rest key value

/-- The value of a key. -/
def member? {α : Type} (members : List (CodeUnits × α)) (key : CodeUnits) : Option α :=
  (members.find? fun m => m.1 = key).map Prod.snd

@[simp] theorem member?_setMember_self {α : Type} (members : List (CodeUnits × α)) (key : CodeUnits)
    (value : α) : member? (setMember members key value) key = some value := by
  induction members with
  | nil => simp [setMember, member?]
  | cons m rest ih =>
    obtain ⟨k, v⟩ := m
    by_cases h : k = key
    · simp [setMember, member?, h]
    · simpa [setMember, member?, h] using ih

theorem member?_setMember_of_ne {α : Type} (members : List (CodeUnits × α)) {key other : CodeUnits}
    (value : α) (h : other ≠ key) :
    member? (setMember members key value) other = member? members other := by
  induction members with
  | nil => simp [setMember, member?, h.symm]
  | cons m rest ih =>
    obtain ⟨k, v⟩ := m
    by_cases hk : k = key
    · subst hk; simp [setMember, member?, h.symm]
    · by_cases ho : k = other
      · subst ho; simp [setMember, member?, h]
      · simpa [setMember, member?, hk, ho] using ih

/-- Whether a value counts as empty: null, false, zero, and texts, arrays and objects without
content. -/
def isEmpty : Json → Bool
  | .null => true
  | .bool b => !b
  | .int i => i == 0
  | .float x => x.isZero
  | .str s => s.isEmpty
  | .arr items => items.isEmpty
  | .obj members => members.isEmpty

end Json

end CommandShell
