import CommandShell.Text.Blank
import CommandShell.Text.LineBreak
import CommandShell.World

/-!
# Command history

The history is the list of the lines entered, oldest first, together with a watermark: the number of
entries that have been stored in a file. A file holds one entry to a line. Reading one skips blank
lines and takes every kind of line break; a byte that is no UTF-8 does not spoil the rest.
-/

namespace CommandShell

structure History where
  entries : List String := []
  /-- How many entries, from the oldest on, have been stored. -/
  watermark : Nat := 0
  deriving DecidableEq, Repr

namespace History

def append (h : History) (line : String) : History := { h with entries := h.entries ++ [line] }

def clear (_ : History) : History := {}

/-- The entries that have not been stored. -/
def unstored (h : History) : List String := h.entries.drop h.watermark

/-- The entries numbered from `start + 1` on. -/
def numberFrom (start : Nat) (entries : List String) : List (Nat × String) :=
  entries.mapIdx fun i entry => (start + i + 1, entry)

/-- The entries with their numbers, all of them or only the last ones. -/
def numbered (h : History) (last : Option Int) : List (Nat × String) :=
  let start := match last with
    | none => 0
    | some k => ((h.entries.length : Int) - k).toNat
  numberFrom start (h.entries.drop start)

/-- The entries that the bytes of a file hold. -/
def entriesOf (content : Bytes) : List String :=
  (Text.splitLines (Text.unifyNewlines (Utf8.decode content))).filter fun line =>
    !Text.isBlankText line

/-- Add the entries of a file; their number comes with the history. -/
def read (h : History) (w : World) (p : Path) : Except Fault (History × Nat) :=
  (w.read p).map fun content =>
    let lines := entriesOf content
    ({ h with entries := h.entries ++ lines }, lines.length)

/-- Count every entry as stored. -/
def markStored (h : History) : History := { h with watermark := h.entries.length }

/-- Add the entries of a file and count every entry as stored. -/
def load (h : History) (w : World) (p : Path) : Except Fault (History × Nat) :=
  (h.read w p).map fun (h, count) => (h.markStored, count)

/-- Store every entry in a file, in place of what it held. If that fails the history is as before,
and the world as the attempt has made it. -/
def write (h : History) (w : World) (p : Path) : History × World × Except Fault Unit :=
  match w.writeText p .truncate (Text.joinLines h.entries) with
  | (w, .ok ()) => (h.markStored, w, .ok ())
  | (w, .error f) => (h, w, .error f)

/-- Add the entries that have not been stored to a file; their number is the result. Without any the
file is not touched. -/
def appendTo (h : History) (w : World) (p : Path) : History × World × Except Fault Nat :=
  if h.unstored.isEmpty then (h, w, .ok 0)
  else
    match w.writeText p .append (Text.joinLines h.unstored) with
    | (w, .ok ()) => (h.markStored, w, .ok h.unstored.length)
    | (w, .error f) => (h, w, .error f)

@[simp] theorem entries_append (h : History) (line : String) :
    (h.append line).entries = h.entries ++ [line] := rfl

@[simp] theorem watermark_append (h : History) (line : String) :
    (h.append line).watermark = h.watermark := rfl

@[simp] theorem entries_clear (h : History) : h.clear.entries = [] := rfl

@[simp] theorem entries_markStored (h : History) : h.markStored.entries = h.entries := rfl

@[simp] theorem watermark_markStored (h : History) : h.markStored.watermark = h.entries.length :=
  rfl

@[simp] theorem unstored_markStored (h : History) : h.markStored.unstored = [] := by
  simp [unstored]

end History

end CommandShell
