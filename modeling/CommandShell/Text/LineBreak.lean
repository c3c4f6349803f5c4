/-!
# Lines of a text

Ten characters end a line: the line feed, the vertical tab, the form feed, the carriage return, the
separators U+001C to U+001E, the next-line character U+0085 and the separators U+2028 and U+2029. A
carriage return directly before a line feed makes one end of line with it. `unifyNewlines` is the
narrower rule under which a stored text is read: only carriage returns are changed.
-/

namespace CommandShell.Text

/-- Whether a character ends a line. -/
def isLineBreak (c : Char) : Bool :=
  let n := c.toNat
  (10 ≤ n && n ≤ 13) || (28 ≤ n && n ≤ 30) || n == 0x85 || n == 0x2028 || n == 0x2029

/-- The lines of a text, without their ends. `line` holds the characters of the line that has been
begun, newest first; `none` means that no line has been begun. -/
def linesFrom : Option (List Char) → List Char → List (List Char)
  | none, [] => []
  | some line, [] => [line.reverse]
  | line, '\r' :: '\n' :: rest => (line.getD []).reverse :: linesFrom none rest
  | line, c :: rest =>
    if isLineBreak c then (line.getD []).reverse :: linesFrom none rest
    else linesFrom (some (c :: line.getD [])) rest

/-- The lines of a text; an end of line at the very end begins no further line. -/
def splitLines (s : String) : List String :=
  (linesFrom none s.toList).map String.ofList

/-- The characters of a text as they are read from a file, in front of them those read before,
newest first. A carriage return, and the line feed after it if there is one, becomes one line feed.
-/
def unifyFrom : List Char → List Char → List Char
  | seen, [] => seen.reverse
  | seen, '\r' :: '\n' :: rest => unifyFrom ('\n' :: seen) rest
  | seen, c :: rest => unifyFrom ((if c = '\r' then '\n' else c) :: seen) rest

/-- The text as it is read from a file: every line ends in one line feed. -/
def unifyNewlines (s : String) : String :=
  String.ofList (unifyFrom [] s.toList)

/-- Entries written one to a line. -/
def joinLines (entries : List String) : String :=
  String.join (entries.map (· ++ "\n"))

end CommandShell.Text
