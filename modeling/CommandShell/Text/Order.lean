/-!
# The order of texts

Texts are ordered by their code points, the first difference deciding.
-/

namespace CommandShell.Text

/-- Whether the first text does not come after the second. -/
def before : List Char → List Char → Bool
  | [], _ => true
  | _ :: _, [] => false
  | a :: as, b :: bs => a.toNat < b.toNat || (a == b && before as bs)

/-- Texts in order, each once. -/
def inOrder (names : List String) : List String :=
  (names.mergeSort fun a b => before a.toList b.toList).foldr
    (fun name rest => if rest.head? = some name then rest else name :: rest) []

end CommandShell.Text
