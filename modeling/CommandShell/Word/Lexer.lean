import CommandShell.Word

/-!
# Words of a line

Outside quotes a plain space ends a word and a backslash takes the next character as it is. Between
single quotes every character stands for itself. Between double quotes a backslash takes the next
character as it is only before a double quote, a backslash, a dollar sign or a line feed; before
anything else both characters stand. Adjacent pieces form one word, and a quote that is never closed
runs to the end of the line.
-/

namespace CommandShell

namespace Word

/-- The quoting that surrounds a character. -/
inductive Quoting where
  | plain
  | single
  | double
  deriving DecidableEq, Repr

/-- The characters that a backslash takes as they are between double quotes. -/
def isEscapable (c : Char) : Bool :=
  c == '"' || c == '\\' || c == '$' || c == '\n'

/-- A word that has been begun: its characters, newest first. -/
structure Draft where
  chars : List Char := []
  quoted : Bool := false
  deriving DecidableEq, Repr

namespace Draft

def push (d : Draft) (c : Char) : Draft := { d with chars := c :: d.chars }

def quote (d : Draft) : Draft := { d with quoted := true }

def toWord (d : Draft) : Word := ⟨String.ofList d.chars.reverse, d.quoted⟩

@[simp] theorem quoted_push (d : Draft) (c : Char) : (d.push c).quoted = d.quoted := rfl

@[simp] theorem chars_quote (d : Draft) : d.quote.chars = d.chars := rfl

end Draft

/-- The words of the remaining characters, the first of them continuing `draft`. -/
def scan : Quoting → Option Draft → List Char → List Word
  | _, none, [] => []
  | _, some d, [] => [d.toWord]
  | .single, draft, c :: rest =>
    if c = '\'' then scan .plain draft rest
    else scan .single (some ((draft.getD {}).push c)) rest
  | .double, draft, c :: rest =>
    if c = '"' then scan .plain draft rest
    else if c = '\\' then
      match rest with
      | [] => scan .double (some ((draft.getD {}).push c)) []
      | e :: rest' =>
        if isEscapable e then scan .double (some ((draft.getD {}).push e)) rest'
        else scan .double (some ((draft.getD {}).push c)) (e :: rest')
    else scan .double (some ((draft.getD {}).push c)) rest
  | .plain, draft, c :: rest =>
    if c = ' ' then (draft.map Draft.toWord).toList ++ scan .plain none rest
    else if c = '\'' then scan .single (some (draft.getD {}).quote) rest
    else if c = '"' then scan .double (some (draft.getD {}).quote) rest
    else if c = '\\' then
      match rest with
      | [] => scan .plain (some ((draft.getD {}).push c)) []
      | e :: rest' => scan .plain (some ((draft.getD {}).push e).quote) rest'
    else scan .plain (some ((draft.getD {}).push c)) rest

section Steps

variable (draft : Option Draft) (rest : List Char)

/-- The end of the line ends the word. -/
theorem scan_end (q : Quoting) : scan q draft [] = (draft.map Draft.toWord).toList := by
  cases q <;> cases draft <;> rfl

@[simp] theorem scan_single_quote : scan .single draft ('\'' :: rest) = scan .plain draft rest := by
  cases draft <;> cases rest <;> exact if_pos rfl

theorem scan_single_of_ne {c : Char} (h : c ≠ '\'') :
    scan .single draft (c :: rest) = scan .single (some ((draft.getD {}).push c)) rest := by
  cases draft <;> cases rest <;> exact if_neg h

@[simp] theorem scan_plain_space :
    scan .plain draft (' ' :: rest) = (draft.map Draft.toWord).toList ++ scan .plain none rest := by
  cases draft <;> cases rest <;> exact if_pos rfl

@[simp] theorem scan_plain_single :
    scan .plain draft ('\'' :: rest) = scan .single (some (draft.getD {}).quote) rest := by
  cases draft <;> cases rest <;> rfl

@[simp] theorem scan_plain_escape (e : Char) :
    scan .plain draft ('\\' :: e :: rest) =
      scan .plain (some ((draft.getD {}).push e).quote) rest := by
  cases draft <;> rfl

@[simp] theorem scan_plain_double :
    scan .plain draft ('"' :: rest) = scan .double (some (draft.getD {}).quote) rest := by
  cases draft <;> cases rest <;> rfl

theorem scan_plain_of_ne {c : Char} (hspace : c ≠ ' ') (hsingle : c ≠ '\'') (hdouble : c ≠ '"')
    (hescape : c ≠ '\\') :
    scan .plain draft (c :: rest) = scan .plain (some ((draft.getD {}).push c)) rest := by
  cases draft <;> cases rest <;> exact (if_neg hspace).trans
    ((if_neg hsingle).trans ((if_neg hdouble).trans (if_neg hescape)))

@[simp] theorem scan_double_quote : scan .double draft ('"' :: rest) = scan .plain draft rest := by
  cases draft <;> cases rest <;> rfl

theorem scan_double_of_ne {c : Char} (hdouble : c ≠ '"') (hescape : c ≠ '\\') :
    scan .double draft (c :: rest) = scan .double (some ((draft.getD {}).push c)) rest := by
  cases draft <;> cases rest <;> exact (if_neg hdouble).trans (if_neg hescape)

theorem scan_double_escape {e : Char} (he : isEscapable e = true) :
    scan .double draft ('\\' :: e :: rest) = scan .double (some ((draft.getD {}).push e)) rest := by
  cases draft <;> exact if_pos he

theorem scan_double_keep {e : Char} (he : isEscapable e = false) :
    scan .double draft ('\\' :: e :: rest) =
      scan .double (some ((draft.getD {}).push '\\')) (e :: rest) := by
  cases draft <;> exact if_neg (Bool.eq_false_iff.mp he)

/-- A backslash that nothing follows stands for itself, without quotes and between double quotes. -/
theorem scan_plain_lone : scan .plain draft ['\\'] = [((draft.getD {}).push '\\').toWord] := by
  cases draft <;> rfl

theorem scan_double_lone : scan .double draft ['\\'] = [((draft.getD {}).push '\\').toWord] := by
  cases draft <;> rfl

end Steps

/-- The words of a line. -/
def tokenize (line : String) : List Word :=
  scan .plain none line.toList

end Word

end CommandShell
