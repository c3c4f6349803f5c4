import CommandShell.Errno
import CommandShell.FileSystem.Content
import CommandShell.Path
import CommandShell.Redirection

/-!
# File systems

A file system maps places to what stands there: a file, a directory, a symbolic link, a pipe, or the
device that swallows what is written to it. A place is the list of names that lead to it from the
root. `walk` follows a path to the place that it names, through links and parent directories.
-/

namespace CommandShell

/-- A place: the names that lead to it from the root, none of them a link, `.` or `..`. -/
abbrev Place := List String

inductive Node where
  | file (content : ByteArray) (executable : Bool)
  | dir
  | link (target : String)
  | pipe
  /-- The device that swallows what is written to it. -/
  | null

/-- Nodes are compared by what they hold. -/
instance : DecidableEq Node := fun a b =>
  match a, b with
  | .file c x, .file d y =>
    decidable_of_iff (c.data = d.data ∧ x = y) (by simp [ByteArray.ext_iff])
  | .link s, .link t => decidable_of_iff (s = t) (by simp)
  | .dir, .dir | .pipe, .pipe | .null, .null => isTrue rfl
  | .file _ _, .dir | .file _ _, .link _ | .file _ _, .pipe | .file _ _, .null => isFalse nofun
  | .dir, .file _ _ | .dir, .link _ | .dir, .pipe | .dir, .null => isFalse nofun
  | .link _, .file _ _ | .link _, .dir | .link _, .pipe | .link _, .null => isFalse nofun
  | .pipe, .file _ _ | .pipe, .dir | .pipe, .link _ | .pipe, .null => isFalse nofun
  | .null, .file _ _ | .null, .dir | .null, .link _ | .null, .pipe => isFalse nofun

structure FileSystem where
  nodes : List (Place × Node) := []
  /-- The directories in which nothing may be looked up. -/
  closed : List Place := []
  /-- When files were last written to, newest first; the others never were. -/
  stamps : List (Place × Nat) := []

namespace FileSystem

/-- What stands at a place. The root is a directory. -/
def get? (fs : FileSystem) (place : Place) : Option Node :=
  if place = [] then some .dir else (fs.nodes.find? fun n => n.1 = place).map Prod.snd

/-- The nodes with one place filled. -/
def setNode (nodes : List (Place × Node)) (place : Place) (node : Node) : List (Place × Node) :=
  match nodes with
  | [] => [(place, node)]
  | (p, n) :: rest => if p = place then (p, node) :: rest else (p, n) :: setNode rest place node

/-- Fill a place. -/
def set (fs : FileSystem) (place : Place) (node : Node) : FileSystem :=
  { fs with nodes := setNode fs.nodes place node }

/-- Empty a place. -/
def erase (fs : FileSystem) (place : Place) : FileSystem :=
  { fs with nodes := fs.nodes.filter fun n => n.1 ≠ place }

/-- When a place was last written to. -/
def stamp (fs : FileSystem) (place : Place) : Nat := (fs.stamps.lookup place).getD 0

/-- Note that a place is written to at some time. -/
def touch (fs : FileSystem) (place : Place) (time : Nat) : FileSystem :=
  if fs.stamps.lookup place = some time then fs
  else { fs with stamps := (place, time) :: fs.stamps.filter fun n => n.1 ≠ place }

theorem find?_setNode_self (nodes : List (Place × Node)) (place : Place) (node : Node) :
    (setNode nodes place node).find? (fun n => n.1 = place) = some (place, node) := by
  induction nodes with
  | nil => simp [setNode]
  | cons m rest ih =>
    obtain ⟨p, n⟩ := m
    by_cases h : p = place
    · simp [setNode, h]
    · simpa [setNode, h] using ih

theorem find?_setNode_of_ne (nodes : List (Place × Node)) {place other : Place} (node : Node)
    (h : other ≠ place) :
    (setNode nodes place node).find? (fun n => n.1 = other) =
      nodes.find? (fun n => n.1 = other) := by
  induction nodes with
  | nil => simp [setNode, h.symm]
  | cons m rest ih =>
    obtain ⟨p, n⟩ := m
    by_cases hp : p = place
    · subst hp; simp [setNode, h.symm]
    · by_cases ho : p = other
      · subst ho; simp [setNode, h]
      · simpa [setNode, hp, ho] using ih

theorem get?_set_self (fs : FileSystem) {place : Place} (node : Node) (h : place ≠ []) :
    (fs.set place node).get? place = some node := by
  simp [get?, set, h, find?_setNode_self]

theorem get?_set_of_ne (fs : FileSystem) {place other : Place} (node : Node) (h : other ≠ place) :
    (fs.set place node).get? other = fs.get? other := by
  simp only [get?, set]
  split
  · rfl
  · rw [find?_setNode_of_ne _ _ h]

/-- The names in a directory. -/
def names (fs : FileSystem) (place : Place) : List String :=
  fs.nodes.filterMap fun n => if n.1.dropLast = place then n.1.getLast? else none

/-- The longest name that the system takes, in bytes. -/
def maxName : Nat := 255

/-- The longest path text that the system takes, in bytes. -/
def maxPath : Nat := 4095

/-- The most links that are followed along one path. -/
def maxLinks : Nat := 40

/-- The names in a text that leads somewhere. A slash at the end asks for a directory; it leaves an
empty name. -/
def namesOf (text : String) : List String :=
  let names := (Text.partsAt '/' text).filter (· != "")
  if text.toList.getLast? = some '/' && !names.isEmpty then names ++ [""] else names

/-- Whether a text leads somewhere from the root. -/
def isFromRoot (text : String) : Bool := text.toList.head? = some '/'

/-- What is done when the end of a path is reached. -/
inductive Purpose where
  /-- Look at what stands there, but not behind a link. -/
  | look
  /-- Look at what stands there, behind all links. -/
  | follow
  /-- Make a file there, behind all links. A name that asks for a directory is refused. -/
  | create
  deriving DecidableEq, Repr

/-- Follow names from a place. The result is where they lead and what stands there: nothing, when
only the last name is missing. -/
def walk (fs : FileSystem) (purpose : Purpose) (links : Nat) (place : Place) (names : List String) :
    Except Errno (Place × Option Node) :=
  match names with
  | [] => .ok (place, fs.get? place)
  | name :: rest =>
    match fs.get? place with
    | none => .error .notFound
    | some .dir =>
      if name = "" then walk fs purpose links place rest
      else if place ∈ fs.closed then .error .permissionDenied
      else if name = "." then walk fs purpose links place rest
      else if name = ".." then walk fs purpose links place.dropLast rest
      else if purpose = .create && rest = [""] then .error .isDirectory
      else if maxName < (Utf8.encode name).length then .error .nameTooLong
      else
        match fs.get? (place ++ [name]) with
        | none => if rest.isEmpty then .ok (place ++ [name], none) else .error .notFound
        | some (.link target) =>
          if rest.isEmpty && purpose = .look then .ok (place ++ [name], some (.link target))
          else
            match links with
            | 0 => .error .tooManyLinks
            | links + 1 =>
              walk fs purpose links (if isFromRoot target then [] else place)
                (namesOf target ++ rest)
        | some _ => walk fs purpose links (place ++ [name]) rest
    | some _ => .error .notDirectory
  termination_by (links, names.length)

instance (fs : FileSystem) (place : Place) : Decidable (place ∈ fs.closed) :=
  List.instDecidableMemOfLawfulBEq place fs.closed

/-- Where a path leads, seen from a directory. -/
def locate (fs : FileSystem) (purpose : Purpose) (base : Place) (p : Path) :
    Except Errno (Place × Option Node) :=
  if maxPath < (Utf8.encode p.text).length then .error .nameTooLong
  else walk fs purpose maxLinks (if p.isAbsolute then [] else base) p.parts

/-- Where a text leads, seen from a directory. It is taken as it is: an empty text leads nowhere,
and a slash at the end counts. -/
def locateText (fs : FileSystem) (purpose : Purpose) (base : Place) (text : String) :
    Except Errno (Place × Option Node) :=
  if text = "" then .error .notFound
  else if maxPath < (Utf8.encode text).length then .error .nameTooLong
  else walk fs purpose maxLinks (if isFromRoot text then [] else base) (namesOf text)

/-- Something has to stand at the end of a path. -/
def present : Except Errno (Place × Option Node) → Except Errno (Place × Node)
  | .error e => .error e
  | .ok (_, none) => .error .notFound
  | .ok (place, some node) => .ok (place, node)

/-- What a path leads to. -/
def stat (fs : FileSystem) (base : Place) (p : Path) : Except Errno (Place × Node) :=
  present (fs.locate .follow base p)

/-- What a text leads to. -/
def statText (fs : FileSystem) (base : Place) (text : String) : Except Errno (Place × Node) :=
  present (fs.locateText .follow base text)

/-- What the link at a path leads to, if the system shows a link there. -/
def linkAt? (fs : FileSystem) (base : Place) (p : Path) : Option String :=
  match fs.locate .look base p with
  | .ok (_, some (.link target)) => some target
  | _ => none

/-- Follow names from a path that has no links in it, and leave the links among them out. A link
that cannot be looked at, for the text of its path is too long, is kept like any other name. -/
def realPath (fs : FileSystem) (base : Place) (links : Nat) (p : Path)
    (names : List String) : Path :=
  match names with
  | [] => p
  | name :: rest =>
    if name = "" || name = "." then realPath fs base links p rest
    else if name = ".." then realPath fs base links p.above rest
    else
      match fs.linkAt? base (p.child name) with
      | none => realPath fs base links (p.child name) rest
      | some target =>
        match links with
        | 0 => rest.foldl Path.child (p.child name)
        | links + 1 =>
          realPath fs base links (if isFromRoot target then .ofParts [] else p)
            (namesOf target ++ rest)
  termination_by (links, names.length)

/-- Where a path leads, as far as the links on its way can be looked at. -/
def realPlace (fs : FileSystem) (base : Place) (p : Path) : Place :=
  (fs.realPath base maxLinks ⟨if p.isAbsolute then .root else .relative, []⟩ p.parts).placeFrom base

/-- Errors that mean that there is nothing at the end of a path. -/
def isAbsence : Errno → Bool
  | .notFound | .notDirectory | .tooManyLinks => true
  | _ => false

/-- A question about what a path leads to; nothing there answers no, and so does a name with a null
character. -/
def test (fs : FileSystem) (base : Place) (p : Path) (q : Node → Bool) : Except Errno Bool :=
  if Path.hasNull p.text then .ok false
  else
    match fs.stat base p with
    | .ok (_, node) => .ok (q node)
    | .error e => if isAbsence e then .ok false else .error e

def isDirNode : Node → Bool
  | .dir => true
  | _ => false

def isFileNode : Node → Bool
  | .file _ _ => true
  | _ => false

def isExecutableNode : Node → Bool
  | .file _ executable => executable
  | _ => false

/-- What is read from a node. -/
def contentOf : Node → Except Errno ByteArray
  | .file content _ => .ok content
  | .dir => .error .isDirectory
  | _ => .ok ByteArray.empty

/-- The content of a file. -/
def read (fs : FileSystem) (base : Place) (p : Path) : Except Errno Bytes :=
  match fs.stat base p with
  | .error e => .error e
  | .ok (_, node) => (contentOf node).map unpack

/-- An open file: where reading and writing goes on, and what may be done. -/
structure OpenFile where
  place : Place
  offset : Nat := 0
  append : Bool := false
  readable : Bool := false
  writable : Bool := true
  deriving DecidableEq, Repr

/-- Open what stands at the end of a path for writing: a file is created if it is missing, and
emptied unless it is to be appended to. -/
def openAt (fs : FileSystem) (mode : OpenMode) : Except Errno (Place × Option Node) →
    Except Errno (OpenFile × FileSystem)
  | .error e => .error e
  | .ok (_, some .dir) => .error .isDirectory
  | .ok (place, none) =>
    .ok ({ place, append := mode == .append }, fs.set place (.file ByteArray.empty false))
  | .ok (place, some (.file _ executable)) =>
    .ok ({ place, append := mode == .append },
      if mode = .truncate then fs.set place (.file ByteArray.empty executable) else fs)
  | .ok (place, some _) => .ok ({ place, append := mode == .append }, fs)

/-- Open a file for writing. -/
def openFile (fs : FileSystem) (base : Place) (p : Path) (mode : OpenMode) :
    Except Errno (OpenFile × FileSystem) :=
  fs.openAt mode (fs.locate .create base p)

/-- Write to an open file, at its end if it was opened for that. -/
def writeTo (fs : FileSystem) (f : OpenFile) (bytes : ByteArray) : OpenFile × FileSystem :=
  match fs.get? f.place with
  | some (.file content executable) =>
    let offset := if f.append then content.size else f.offset
    ({ f with offset := offset + bytes.size },
     if bytes.size = 0 then fs
       else fs.set f.place (.file (overwrite content offset bytes) executable))
  | _ => (f, fs)

/-- Read at most so many bytes from an open file. -/
def readFrom (fs : FileSystem) (f : OpenFile) (limit : Nat) : ByteArray × OpenFile :=
  match fs.get? f.place with
  | some (.file content _) =>
    let bytes := content.extract f.offset (f.offset + limit)
    (bytes, { f with offset := f.offset + bytes.size })
  | _ => (ByteArray.empty, f)

/-- The size of the file at a place; nothing else has one. -/
def sizeAt (fs : FileSystem) (place : Place) : Nat :=
  match fs.get? place with
  | some (.file content _) => content.size
  | _ => 0

/-- What the system refuses a process at a place. -/
structure Restraint where
  /-- The error of opening what stands there for reading. -/
  unreadable : Option Errno := none
  /-- The error of opening it for writing. -/
  unwritable : Option Errno := none
  /-- The size beyond which it does not grow, and the error of writing on. -/
  limit : Option (Nat × Errno) := none
  deriving DecidableEq, Repr

/-- What is taken of bytes that are written behind so many others, and whether that is all of
them. -/
def Restraint.take (r : Restraint) (held : Nat) (bytes : Bytes) : Bytes × Except Errno Unit :=
  match r.limit with
  | none => (bytes, .ok ())
  | some (size, e) =>
    if bytes.length ≤ size - held then (bytes, .ok ()) else (bytes.take (size - held), .error e)

/-- Write a whole file. What is taken of the bytes before an error stays there, and so does what
opening the file did to it. -/
def writeFile (fs : FileSystem) (restraint : Place → Restraint) (base : Place) (p : Path)
    (mode : OpenMode) (bytes : Bytes) : FileSystem × Except Errno Unit :=
  match fs.openFile base p mode with
  | .error e => (fs, .error e)
  | .ok (f, opened) =>
    match (restraint f.place).unwritable with
    | some e => (fs, .error e)
    | none =>
      let (taken, result) := (restraint f.place).take (opened.sizeAt f.place) bytes
      ((opened.writeTo f (pack taken)).2, result)

/-- Make a directory. -/
def makeDir (fs : FileSystem) (base : Place) (p : Path) : Except Errno FileSystem :=
  match fs.locate .look base p with
  | .error e => .error e
  | .ok (_, some _) => .error .alreadyExists
  | .ok (place, none) => .ok (fs.set place .dir)

/-- A directory that could not be made for an error is all right if it is there. -/
def acceptDir (fs : FileSystem) (base : Place) (p : Path) (e : Errno) : Except Errno Unit :=
  match fs.test base p isDirNode with
  | .ok true => .ok ()
  | .ok false => .error e
  | .error e' => .error e'

/-- Make a directory and its missing parents, `depth` of them at most. -/
def makeDirs (fs : FileSystem) (base : Place) : Nat → Path → FileSystem × Except Errno Unit
  | 0, p =>
    match fs.makeDir base p with
    | .ok fs' => (fs', .ok ())
    | .error .notFound => (fs, .error .notFound)
    | .error e => (fs, fs.acceptDir base p e)
  | depth + 1, p =>
    match fs.makeDir base p with
    | .ok fs' => (fs', .ok ())
    | .error .notFound =>
      match makeDirs fs base depth p.parent with
      | (fs', .error e) => (fs', .error e)
      | (fs', .ok ()) =>
        match fs'.makeDir base p with
        | .ok fs'' => (fs'', .ok ())
        | .error .notFound => (fs', .error .notFound)
        | .error e => (fs', fs'.acceptDir base p e)
    | .error e => (fs, fs.acceptDir base p e)

end FileSystem

end CommandShell
