import CommandShell.Text.Blank
import CommandShell.Word.Lexer

/-!
# Segments of a line

A pipe character that is neither quoted nor escaped divides a line into segments. `rawSegments`
keeps every character of the line but those pipes; `segments` also strips each segment.
-/

namespace CommandShell

namespace Word

/-- Put a character in front of the first segment. -/
def consFirst (c : Char) : List (List Char) → List (List Char)
  | [] => [[c]]
  | first :: others => (c :: first) :: others

theorem foldr_consFirst_cons (cs first : List Char) (others : List (List Char)) :
    cs.foldr consFirst (first :: others) = (cs ++ first) :: others := by
  induction cs with
  | nil => rfl
  | cons c cs ih => rw [List.foldr_cons, ih]; rfl

/-- The segments of the remaining characters, as lists of characters. -/
def cut : Quoting → List Char → List (List Char)
  | _, [] => [[]]
  | .single, c :: rest =>
    consFirst c (if c = '\'' then cut .plain rest else cut .single rest)
  | .double, c :: rest =>
    if c = '\\' then
      match rest with
      | [] => [[c]]
      | e :: rest' => consFirst c (consFirst e (cut .double rest'))
    else consFirst c (if c = '"' then cut .plain rest else cut .double rest)
  | .plain, c :: rest =>
    if c = '\\' then
      match rest with
      | [] => [[c]]
      | e :: rest' => consFirst c (consFirst e (cut .plain rest'))
    else if c = '\'' then consFirst c (cut .single rest)
    else if c = '"' then consFirst c (cut .double rest)
    else if c = '|' then [] :: cut .plain rest
    else consFirst c (cut .plain rest)

section Steps

variable (rest : List Char)

@[simp] theorem cut_single_quote :
    cut .single ('\'' :: rest) = consFirst '\'' (cut .plain rest) := rfl

theorem cut_single_of_ne {c : Char} (h : c ≠ '\'') :
    cut .single (c :: rest) = consFirst c (cut .single rest) :=
  congrArg (consFirst c) (if_neg h)

@[simp] theorem cut_plain_escape (e : Char) :
    cut .plain ('\\' :: e :: rest) = consFirst '\\' (consFirst e (cut .plain rest)) := rfl

@[simp] theorem cut_plain_single :
    cut .plain ('\'' :: rest) = consFirst '\'' (cut .single rest) := by
  cases rest <;> rfl

@[simp] theorem cut_plain_pipe : cut .plain ('|' :: rest) = [] :: cut .plain rest := by
  cases rest <;> rfl

@[simp] theorem cut_plain_space :
    cut .plain (' ' :: rest) = consFirst ' ' (cut .plain rest) := by
  cases rest <;> rfl

theorem cut_plain_of_ne {c : Char} (hescape : c ≠ '\\') (hsingle : c ≠ '\'') (hdouble : c ≠ '"')
    (hpipe : c ≠ '|') : cut .plain (c :: rest) = consFirst c (cut .plain rest) := by
  cases rest <;> simp [cut, hescape, hsingle, hdouble, hpipe]

end Steps

/-- The segments of a line, character for character. -/
def rawSegments (line : String) : List String :=
  (cut .plain line.toList).map String.ofList

/-- The segments of a line, each without the blank characters at its ends. -/
def segments (line : String) : List String :=
  (rawSegments line).map Text.strip

end Word

end CommandShell
