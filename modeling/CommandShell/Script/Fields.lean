import CommandShell.Script.Pattern

/-!
# Fields

An expanded word is a list of segments. Some of them are split into fields at separators: blank ones
count together, and each other one by itself.
-/

namespace CommandShell.Script

/-- A part of an expanded word. -/
inductive Segment where
  /-- Not split. -/
  | plain (cs : List Marked)
  /-- Split at the separators. -/
  | fields (cs : List Marked)
  /-- Split at borders only. -/
  | bordered (cs : List Marked)
  /-- Quotes, which keep a field though it is empty. -/
  | mark

namespace Segment

def glyphs : Segment → List Glyph
  | .plain cs | .fields cs | .bordered cs => cs.map .char
  | .mark => [.quote]

/-- Segments as one text. -/
def join (segments : List Segment) : String := Glyph.text (segments.flatMap glyphs)

/-- Segments as one pattern. -/
def pattern (segments : List Segment) : List Marked := patternOf (segments.flatMap glyphs)

end Segment

/-- The separators when no variable says otherwise. -/
def defaultSeparators : String := " \t\n"

/-- Fields that are being cut. -/
structure FieldDraft where
  /-- The fields that are finished, last first. -/
  fields : List (List Glyph) := []
  /-- The field that is open, last character first. -/
  current : List Glyph := []
  /-- There is something in the open field. -/
  touched : Bool := false
  /-- A blank separator ended the last field. -/
  afterBlank : Bool := false
  /-- How many fields there may still be. -/
  left : Option Nat := none
  /-- The number of characters of the open field before separators at its end. -/
  kept : Option Nat := none
  /-- The last segment that was split is one with borders. -/
  bordered : Bool := false
  /-- And the one before it. -/
  afterBorders : Bool := false

namespace FieldDraft

def add (d : FieldDraft) (m : Marked) : FieldDraft :=
  { d with current := .char m :: d.current, touched := true }

/-- Begin the open field anew. -/
def restart (d : FieldDraft) : FieldDraft := { d with current := [], touched := false }

/-- A separator that comes where no blank separator is being passed over. -/
def separate (d : FieldDraft) (m : Marked) (blank : Bool) : FieldDraft :=
  let d := if d.bordered || d.afterBorders then d else { d with afterBlank := blank }
  if !d.touched && d.afterBlank then { d.restart with afterBlank := false }
  else
    match d.left with
    | some 1 => { d.add m with left := some 0, kept := some d.current.length }
    | left =>
      { d.restart with fields := d.current.reverse :: d.fields, left := left.map (· - 1) }

/-- A character that may be a separator. -/
def split (separators : List Char) (d : FieldDraft) (m : Marked) : FieldDraft :=
  let isBorder := m.1 == border
  let isSeparator := isBorder || separators.contains m.1
  let blank := isSeparator && (isBorder || defaultSeparators.toList.contains m.1)
  if d.left = some 0 then
    if blank then { d.add m with kept := d.kept.or (some d.current.length) }
    else
      { d.add m with
        kept := if isSeparator && d.afterBlank then d.kept else none
        afterBlank := false }
  else if d.afterBlank then
    if blank then d.restart
    else if isSeparator then { d.restart with afterBlank := false }
    else { d.restart.add m with afterBlank := false }
  else if isSeparator then d.separate m blank
  else { d.add m with afterBlank := false }

/-- Begin a segment that is split. -/
def enter (d : FieldDraft) (bordered : Bool) : FieldDraft :=
  { d with afterBlank := false, afterBorders := d.bordered, bordered }

def addSegment (separators : List Char) (d : FieldDraft) : Segment → FieldDraft
  | .plain cs =>
    if cs.isEmpty then d
    else { d with current := cs.reverse.map .char ++ d.current, touched := true }
  | .mark => { d with current := .quote :: d.current, touched := true }
  | .fields cs => cs.foldl (split separators) (d.enter false)
  | .bordered cs => cs.foldl (split []) (d.enter true)

/-- The fields, when the word is at its end. -/
def finish (d : FieldDraft) : List (List Glyph) :=
  let current := d.current.reverse
  if d.bordered then (current :: d.fields).reverse
  else
    match d.kept with
    | some n => (if n = 0 then d.fields else current.take n :: d.fields).reverse
    | none => (if d.touched then current :: d.fields else d.fields).reverse

end FieldDraft

/-- The fields of segments, not more than a number of them. -/
def fieldsOf (separators : List Char) (limit : Option Nat) (segments : List Segment) :
    List (List Glyph) :=
  (segments.foldl (FieldDraft.addSegment separators) { left := limit }).finish

end CommandShell.Script
