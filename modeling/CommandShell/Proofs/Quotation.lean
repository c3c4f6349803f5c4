import CommandShell.Proofs.Text.Trimming
import CommandShell.Stage

/-!
# Quotation

`Word.quote` writes a text between single quotes, `Word.commandText` joins quoted words to a
command, and `Word.lineText` joins commands to a pipeline. Whatever the words are, the line is read
back as exactly the commands that it was written from: no character of a word divides the line, ends
a word or turns into an operator.

## Main statements

* `Word.tokenize_commandText`: quoted words are read back, each of them marked as quoted.
* `Word.segments_lineText`: a line of quoted commands has those commands as its segments.
* `Stage.parse_lineText`: the stages of such a line are the commands, without any redirection.
-/

namespace CommandShell

namespace Word

/-- The written form of a character between single quotes. -/
def quoteChar (c : Char) : List Char :=
  if c = '\'' then ['\'', '\\', '\'', '\''] else [c]

/-- Characters between single quotes. -/
def quoteChars (w : List Char) : List Char :=
  '\'' :: (w.flatMap quoteChar ++ ['\''])

/-- A text between single quotes. -/
def quote (w : String) : String := String.ofList (quoteChars w.toList)

/-- The words of a command, quoted and separated by spaces. -/
def commandText (words : List String) : String := " ".intercalate (words.map quote)

/-- Commands separated by pipes, all of their words quoted. -/
def lineText (commands : List (List String)) : String :=
  " | ".intercalate (commands.map commandText)

@[simp] theorem toList_quote (w : String) : (quote w).toList = quoteChars w.toList := by
  simp [quote]

/-! ## Reading words -/

/-- A draft that goes on with characters between single quotes. -/
def Draft.literal (d : Draft) (w : List Char) : Draft := ⟨w.reverse ++ d.chars, true⟩

/-- Between single quotes, the written form of a text gives back the text. A quote in it leaves the
quotes, is escaped, and enters them again. -/
theorem scan_flatMap_quoteChar (w rest : List Char) (d : Draft) (hd : d.quoted = true) :
    scan .single (some d) (w.flatMap quoteChar ++ '\'' :: rest) =
      scan .plain (some (d.literal w)) rest := by
  induction w generalizing d with
  | nil =>
    obtain ⟨chars, quoted⟩ := d
    cases hd
    simp [Draft.literal]
  | cons c w ih =>
    rw [List.flatMap_cons, List.append_assoc]
    by_cases hc : c = '\''
    · subst hc
      have enters : scan .single (some d)
          (quoteChar '\'' ++ (w.flatMap quoteChar ++ '\'' :: rest)) =
          scan .single (some (d.push '\'').quote.quote) (w.flatMap quoteChar ++ '\'' :: rest) := by
        simp [quoteChar]
      rw [enters, ih _ rfl]
      simp [Draft.literal, Draft.push, Draft.quote]
    · have stands : scan .single (some d) (quoteChar c ++ (w.flatMap quoteChar ++ '\'' :: rest)) =
          scan .single (some (d.push c)) (w.flatMap quoteChar ++ '\'' :: rest) := by
        rw [quoteChar, if_neg hc, List.singleton_append, scan_single_of_ne _ _ hc, Option.getD_some]
      rw [stands, ih (d.push c) hd]
      simp [Draft.literal, Draft.push]

/-- A quoted text outside quotes begins a word that holds the text. -/
theorem scan_quoteChars (w rest : List Char) :
    scan .plain none (quoteChars w ++ rest) = scan .plain (some ⟨w.reverse, true⟩) rest := by
  have opens : scan .plain none (quoteChars w ++ rest) =
      scan .single (some ⟨[], true⟩) (w.flatMap quoteChar ++ '\'' :: rest) := by
    simp [quoteChars, Draft.quote]
  rw [opens, scan_flatMap_quoteChar w rest _ rfl]
  simp [Draft.literal]

/-- Quoted words are read back, each of them marked as quoted. -/
theorem tokenize_commandText (words : List String) :
    tokenize (commandText words) = words.map fun w => ⟨w, true⟩ := by
  induction words with
  | nil => simp [tokenize, commandText, scan]
  | cons w words ih =>
    have word : Draft.toWord ⟨w.toList.reverse, true⟩ = ⟨w, true⟩ := by simp [Draft.toWord]
    cases words with
    | nil =>
      have read := scan_quoteChars w.toList []
      rw [List.append_nil] at read
      simp [tokenize, commandText, read, scan, word]
    | cons v words =>
      have read := scan_quoteChars w.toList (' ' :: (commandText (v :: words)).toList)
      have apart : (commandText (w :: v :: words)).toList =
          quoteChars w.toList ++ ' ' :: (commandText (v :: words)).toList := by
        simp [commandText]
      rw [tokenize, apart, read, scan_plain_space, List.map_cons, ← ih, tokenize]
      simp [word]

/-! ## Dividing the line -/

/-- Characters that stay within a segment, whatever follows, and leave no quote open. -/
def IsUndivided (cs : List Char) : Prop :=
  ∀ rest, cut .plain (cs ++ rest) = cs.foldr consFirst (cut .plain rest)

theorem IsUndivided.append {a b : List Char} (ha : IsUndivided a) (hb : IsUndivided b) :
    IsUndivided (a ++ b) := by
  intro rest
  rw [List.append_assoc, ha, hb, List.foldr_append]

theorem isUndivided_nil : IsUndivided [] := fun _ => rfl

theorem isUndivided_spaces (n : Nat) : IsUndivided (List.replicate n ' ') := by
  induction n with
  | zero => exact isUndivided_nil
  | succ n ih =>
    intro rest
    rw [List.replicate_succ, List.cons_append, cut_plain_space, ih, List.foldr_cons]

theorem cut_flatMap_quoteChar (w rest : List Char) :
    cut .single (w.flatMap quoteChar ++ '\'' :: rest) =
      (w.flatMap quoteChar ++ ['\'']).foldr consFirst (cut .plain rest) := by
  induction w with
  | nil => simp
  | cons c w ih =>
    rw [List.flatMap_cons, List.append_assoc, List.append_assoc, List.foldr_append, ← ih]
    by_cases hc : c = '\''
    · simp [quoteChar, hc]
    · simp [quoteChar, hc, cut_single_of_ne _ hc]

theorem isUndivided_quoteChars (w : List Char) : IsUndivided (quoteChars w) := by
  intro rest
  simp [quoteChars, cut_flatMap_quoteChar]

theorem isUndivided_commandText (words : List String) : IsUndivided (commandText words).toList := by
  induction words with
  | nil => simpa [commandText] using isUndivided_nil
  | cons w words ih =>
    cases words with
    | nil => simpa [commandText] using isUndivided_quoteChars w.toList
    | cons v words =>
      have apart : (commandText (w :: v :: words)).toList =
          (quoteChars w.toList ++ List.replicate 1 ' ') ++ (commandText (v :: words)).toList := by
        simp [commandText]
      rw [apart]
      exact ((isUndivided_quoteChars _).append (isUndivided_spaces 1)).append ih

/-- Undivided characters to the end of a line are one segment. -/
theorem cut_of_isUndivided {cs : List Char} (h : IsUndivided cs) : cut .plain cs = [cs] := by
  have whole := h []
  rw [List.append_nil, cut, foldr_consFirst_cons, List.append_nil] at whole
  exact whole

/-- Undivided characters up to a pipe are the first segment. -/
theorem cut_append_pipe {cs : List Char} (h : IsUndivided cs) (rest : List Char) :
    cut .plain (cs ++ '|' :: rest) = cs :: cut .plain rest := by
  rw [h, cut_plain_pipe, foldr_consFirst_cons, List.append_nil]

/-- A command of some words begins and ends with a quote. -/
theorem toList_commandText_ends {words : List String} (h : words ≠ []) :
    ∃ m, (commandText words).toList = '\'' :: (m ++ ['\'']) := by
  induction words with
  | nil => exact absurd rfl h
  | cons w words ih =>
    cases words with
    | nil => exact ⟨w.toList.flatMap quoteChar, by simp [commandText, quoteChars]⟩
    | cons v words =>
      obtain ⟨m, hm⟩ := ih (by simp)
      refine ⟨w.toList.flatMap quoteChar ++ '\'' :: ' ' :: '\'' :: m, ?_⟩
      have apart : (commandText (w :: v :: words)).toList =
          quoteChars w.toList ++ ' ' :: (commandText (v :: words)).toList := by
        simp [commandText]
      rw [apart, hm]
      simp [quoteChars]

/-- Stripping removes spaces around a command and nothing of it. -/
theorem strip_commandText {words : List String} (h : words ≠ []) (m n : Nat) :
    Text.stripChars (List.replicate m ' ' ++ (commandText words).toList ++ List.replicate n ' ') =
      (commandText words).toList := by
  obtain ⟨inner, hinner⟩ := toList_commandText_ends h
  have quote : Text.isBlank '\'' = false := rfl
  rw [Text.stripChars_eq_trimmed, List.append_assoc,
    Text.trimmed_around (by simp) (by simp), hinner]
  refine Text.trimmed_eq_self (by simp [quote]) ?_
  rw [← List.cons_append, List.getLast?_concat]
  simp [quote]

/-- The segments of a line of commands, the first of which may stand behind a space. -/
theorem stripChars_cut_commands (m : Nat) (command : List String) (commands : List (List String))
    (h : ∀ c ∈ command :: commands, c ≠ []) :
    (cut .plain (List.replicate m ' ' ++ (lineText (command :: commands)).toList)).map
      Text.stripChars = (command :: commands).map fun c => (commandText c).toList := by
  induction commands generalizing m command with
  | nil =>
    have single := strip_commandText (h command (by simp)) m 0
    rw [List.replicate_zero, List.append_nil] at single
    have whole : IsUndivided (List.replicate m ' ' ++ (commandText command).toList) :=
      (isUndivided_spaces m).append (isUndivided_commandText command)
    simpa [lineText, cut_of_isUndivided whole] using single
  | cons next commands ih =>
    have line : List.replicate m ' ' ++ (lineText (command :: next :: commands)).toList =
        (List.replicate m ' ' ++ (commandText command).toList ++ List.replicate 1 ' ') ++
          '|' :: (List.replicate 1 ' ' ++ (lineText (next :: commands)).toList) := by
      simp [lineText]
    have whole := ((isUndivided_spaces m).append (isUndivided_commandText command)).append
      (isUndivided_spaces 1)
    rw [line, cut_append_pipe whole, List.map_cons, strip_commandText (h command (by simp)),
      ih 1 next fun c hc => h c (List.mem_cons_of_mem _ hc)]
    rfl

/-- A line of quoted commands has those commands as its segments. -/
theorem segments_lineText {commands : List (List String)} (hne : commands ≠ [])
    (h : ∀ c ∈ commands, c ≠ []) : segments (lineText commands) = commands.map commandText := by
  obtain ⟨command, commands, rfl⟩ := List.exists_cons_of_ne_nil hne
  have cutting := stripChars_cut_commands 0 command commands h
  rw [List.replicate_zero, List.nil_append] at cutting
  calc segments (lineText (command :: commands))
      = ((cut .plain (lineText (command :: commands)).toList).map Text.stripChars).map
        String.ofList := by
        simp [segments, rawSegments, Text.strip]
    _ = (command :: commands).map commandText := by
        rw [cutting, List.map_map]
        simp

/-- Nothing is stripped of a line that is one command. -/
theorem strip_lineText {words : List String} (h : words ≠ []) :
    Text.strip (lineText [words]) = lineText [words] := by
  have hstrip := strip_commandText h 0 0
  rw [List.replicate_zero, List.nil_append, List.append_nil] at hstrip
  rw [lineText, List.map_singleton, String.intercalate_singleton, Text.strip, hstrip,
    String.ofList_toList]

theorem lineText_ne_empty {words : List String} (h : words ≠ []) : lineText [words] ≠ "" := by
  obtain ⟨inner, hinner⟩ := toList_commandText_ends h
  rw [lineText, List.map_singleton, String.intercalate_singleton]
  intro hempty
  simp [hempty] at hinner

end Word

/-! ## Stages -/

/-- Quoted words are arguments, whatever they look like. -/
theorem Redirection.extractFrom_quoted (r : Redirections) (words : List String) :
    extractFrom r (words.map fun w => ⟨w, true⟩) = .ok (words.map fun w => ⟨w, true⟩, r) := by
  induction words with
  | nil => rfl
  | cons w words ih => simp [extractFrom, operatorOf?, ih, Except.map]

namespace Stage

/-- The stage of a command of quoted words. -/
def ofWords (s : Session) (name : String) (args : List String) : Stage where
  command := name
  args := args
  target := targetOf s name
  text := Word.commandText (name :: args)

theorem ofSegment_commandText (s : Session) (name : String) (args : List String) :
    ofSegment s (Word.commandText (name :: args)) = .ok (ofWords s name args) := by
  rw [ofSegment, Word.tokenize_commandText, Redirection.extract, Redirection.extractFrom_quoted]
  simp [ofWords, Function.comp_def]

theorem ofSegments_commandText (s : Session) (commands : List (List String))
    (h : ∀ c ∈ commands, c ≠ []) :
    ∃ stages, ofSegments s (commands.map Word.commandText) = .ok stages ∧
      stages.map (fun t => t.command :: t.args) = commands ∧ ∀ t ∈ stages, t.redirections = {} := by
  induction commands with
  | nil => exact ⟨[], rfl, rfl, by simp⟩
  | cons command commands ih =>
    obtain ⟨name, args, rfl⟩ := List.exists_cons_of_ne_nil (h command (by simp))
    obtain ⟨stages, hread, hwords, hplain⟩ := ih fun c hc => h c (List.mem_cons_of_mem _ hc)
    refine ⟨ofWords s name args :: stages, ?_, ?_, ?_⟩
    · rw [List.map_cons, ofSegments, ofSegment_commandText, hread]
      rfl
    · rw [List.map_cons, hwords, ofWords]
    · intro t ht
      obtain rfl | ht := List.mem_cons.mp ht
      · rfl
      · exact hplain t ht

/-- A line that is one quoted command. -/
theorem parse_lineText_singleton (s : Session) (name : String) (args : List String) :
    parse s (Word.lineText [name :: args]) = .ok [ofWords s name args] := by
  have hsegments : Word.segments (Word.lineText [name :: args]) =
      [Word.commandText (name :: args)] :=
    Word.segments_lineText (by simp) (by simp)
  have hne : Word.commandText (name :: args) ≠ "" := by
    simpa [Word.lineText] using Word.lineText_ne_empty (List.cons_ne_nil name args)
  rw [parse, hsegments]
  split
  · next heq => exact absurd (List.cons.inj heq).1 hne
  · rw [if_neg (by simp [hne]), ofSegments, ofSegment_commandText, ofSegments]
    rfl

/-- A line of quoted commands is read back as one stage for each command: its first word is what the
stage runs, the other words are its arguments, and nothing is redirected. -/
theorem parse_lineText (s : Session) (commands : List (List String)) (hne : commands ≠ [])
    (h : ∀ c ∈ commands, c ≠ []) :
    ∃ stages, parse s (Word.lineText commands) = .ok stages ∧ stages.length = commands.length ∧
      stages.map (fun t => t.command :: t.args) = commands ∧ ∀ t ∈ stages, t.redirections = {} := by
  obtain ⟨stages, hread, hwords, hplain⟩ := ofSegments_commandText s commands h
  refine ⟨stages, ?_, by rw [← hwords, List.length_map], hwords, hplain⟩
  have visible : ∀ segment ∈ commands.map Word.commandText, segment ≠ "" := by
    intro segment hs
    obtain ⟨command, hc, rfl⟩ := List.mem_map.mp hs
    obtain ⟨m, hm⟩ := Word.toList_commandText_ends (h command hc)
    intro he
    simp [he] at hm
  rw [parse, Word.segments_lineText hne h]
  split
  · rename_i blank
    exact absurd rfl (visible "" (by rw [blank]; simp))
  · rw [if_neg (by simpa using fun c hc he => visible _ (List.mem_map_of_mem hc) he)]
    exact hread

/-- Words that look like quotes, operators and pipes are read back as they are. -/
theorem parse_lineText_hostile :
    let s : Session :=
      { cwd := Path.ofParts [], world := {}, machine := { load := fun _ _ _ => .error .notFound } }
    let commands := [["a|b", "it's", ">", ""], ["2>&1", "\\", " x\n"]]
    (commands ≠ [] ∧ ∀ c ∈ commands, c ≠ []) ∧
      Word.lineText commands = "'a|b' 'it'\\''s' '>' '' | '2>&1' '\\' ' x\n'" ∧
      ∃ stages, parse s (Word.lineText commands) = .ok stages ∧ stages.length = commands.length ∧
        stages.map (fun t => t.command :: t.args) = commands ∧ ∀ t ∈ stages, t.redirections = {} :=
  ⟨by decide, by decide, parse_lineText _ _ (by decide) (by decide)⟩

end Stage

end CommandShell
