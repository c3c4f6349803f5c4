import CommandShell.Text.Parts

/-!
# Paths

A path is where it starts and the names that follow. Repeated slashes and the name `.` leave no
trace, `..` is kept, and exactly two slashes in front are kept apart from one.
-/

namespace CommandShell

namespace Path

/-- Where a path starts. -/
inductive Anchor where
  | relative
  | root
  | doubleRoot
  deriving DecidableEq, Repr

end Path

structure Path where
  anchor : Path.Anchor
  parts : List String
  deriving DecidableEq, Repr

namespace Path

/-- Whether a name says anything about where a path leads. -/
def isPart (name : String) : Bool := name != "" && name != "."

/-- The names of a path text. -/
def partsOf (text : String) : List String :=
  (Text.partsAt '/' text).filter isPart

/-- The anchor of a path text. -/
def anchorOf (text : String) : Anchor :=
  match text.toList with
  | '/' :: '/' :: '/' :: _ => .root
  | '/' :: '/' :: _ => .doubleRoot
  | '/' :: _ => .root
  | _ => .relative

/-- The path that a text names. -/
def ofText (text : String) : Path := ⟨anchorOf text, partsOf text⟩

/-- The text of a path; the empty relative path is a single point. -/
def text (p : Path) : String :=
  match p.anchor with
  | .relative => if p.parts.isEmpty then "." else String.intercalate "/" p.parts
  | .root => "/" ++ String.intercalate "/" p.parts
  | .doubleRoot => "//" ++ String.intercalate "/" p.parts

def isAbsolute (p : Path) : Bool := p.anchor != .relative

/-- The second path as seen from the first. -/
def join (p q : Path) : Path :=
  if q.isAbsolute then q else ⟨p.anchor, p.parts ++ q.parts⟩

/-- The path without its last name; a path without names is its own parent. -/
def parent (p : Path) : Path := ⟨p.anchor, p.parts.dropLast⟩

/-- The absolute path of a list of names. -/
def ofParts (parts : List String) : Path := ⟨.root, parts⟩

/-- The path to a name in the directory at a path. -/
def child (p : Path) (name : String) : Path := ⟨p.anchor, p.parts ++ [name]⟩

/-- The directory above that at a path without links. The root is above itself. -/
def above (p : Path) : Path :=
  if !p.isAbsolute && p.parts.getLast?.all (· == "..") then p.child ".." else p.parent

/-- The names that lead from the root to a place, after one more name. -/
def follow (place : List String) (name : String) : List String :=
  if name = "" || name = "." then place
  else if name = ".." then place.dropLast
  else place ++ [name]

/-- The names that lead from the root to where a path without links leads, seen from a directory. -/
def placeFrom (p : Path) (base : List String) : List String :=
  p.parts.foldl follow (if p.isAbsolute then [] else base)

@[simp] theorem isAbsolute_ofParts (parts : List String) : (ofParts parts).isAbsolute = true := rfl

theorem join_of_isAbsolute {p q : Path} (h : q.isAbsolute = true) : p.join q = q := by
  simp [join, h]

theorem isAbsolute_join {p : Path} (h : p.isAbsolute = true) (q : Path) :
    (p.join q).isAbsolute = true := by
  unfold join
  split
  · assumption
  · exact h

/-- The text of a name in a directory that is named by a text. -/
def inDirectory (directory name : String) : String :=
  if directory = "" || directory.toList.getLast? = some '/' then directory ++ name
    else directory ++ "/" ++ name

/-- Whether a text holds a null character, which no name of a file can. -/
def hasNull (text : String) : Bool := text.toList.contains (Char.ofNat 0)

end Path

end CommandShell
