/-!
# Blank characters

The blank characters are those with the Unicode property White_Space together with the four
information separators U+001C to U+001F. A text is *blank* when it holds nothing else, and
`strip` removes them from both ends.
-/

namespace CommandShell.Text

/-- Whether a character counts as white space. -/
def isBlank (c : Char) : Bool :=
  let n := c.toNat
  (9 ≤ n && n ≤ 13) || (28 ≤ n && n ≤ 32) || n == 0x85 || n == 0xA0 || n == 0x1680 ||
    (0x2000 ≤ n && n ≤ 0x200A) || n == 0x2028 || n == 0x2029 || n == 0x202F || n == 0x205F ||
    n == 0x3000

@[simp] theorem isBlank_space : isBlank ' ' = true := rfl

/-- Drop the blank characters at the end. -/
def stripEnd (cs : List Char) : List Char :=
  (cs.reverse.dropWhile isBlank).reverse

/-- Drop the blank characters at both ends. -/
def stripChars (cs : List Char) : List Char :=
  stripEnd (cs.dropWhile isBlank)

/-- The text without the blank characters at its ends. -/
def strip (s : String) : String :=
  String.ofList (stripChars s.toList)

/-- Whether a text has no character but blank ones. -/
def isBlankText (s : String) : Bool :=
  s.toList.all isBlank

@[simp] theorem stripChars_nil : stripChars [] = [] := rfl

theorem toList_strip (s : String) : (strip s).toList = stripChars s.toList := by
  simp [strip]

end CommandShell.Text
