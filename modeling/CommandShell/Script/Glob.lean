import CommandShell.FileSystem.Basic
import CommandShell.Script.Pattern
import CommandShell.Text.Order

/-!
# Names of files

A field with pattern characters is replaced by the names of the files that it matches, in order.
-/

namespace CommandShell.Script

/-- Whether an opening bracket begins a set, seen from what follows it. -/
def opensSet (cs : List Marked) : Bool :=
  let cs := match cs with
    | ('!', false) :: rest => rest
    | cs => cs
  (cs.drop 1).contains (']', false)

/-- Whether a name is a pattern. -/
def isGlob : List Marked → Bool
  | [] => false
  | ('*', false) :: _ => true
  | ('?', false) :: _ => true
  | ('[', false) :: rest => opensSet rest || isGlob rest
  | _ :: rest => isGlob rest

/-- Whether a field holds characters that patterns are made of. -/
def mayBeGlob (field : List Glyph) : Bool :=
  (Glyph.marked field).any fun m => m.1 == '*' || m.1 == '?' || m.1 == '['

/-- The names in a directory that is named by a text, with the two that every directory has. -/
def entries (files : FileSystem) (base : Place) (directory : String) : List String :=
  match files.statText base (if directory = "" then "." else textOf directory) with
  | .ok (place, .dir) => "." :: ".." :: (files.names place).map octetsOf
  | _ => []

/-- The files that the parts of a path match, each after the text that leads to them. -/
def matchingFiles (files : FileSystem) (base : Place) (before : String) :
    List (List Marked) → List String
  | [] => [before]
  | part :: rest =>
    let continued (name : String) : List String :=
      matchingFiles files base (before ++ name ++ (if rest.isEmpty then "" else "/")) rest
    if isGlob part then
      let names := (entries files base before).filter fun n =>
        (!n.startsWith "." || part.head?.map Prod.fst = some '.') && isMatch part n
      names.flatMap continued
    else
      let name := plainText part
      if rest.isEmpty then
        match files.locateText .look base (textOf (before ++ name)) with
        | .ok (_, some _) => [before ++ name]
        | _ => []
      else continued name

/-- A field as words: the files that it matches, or itself if there are none. -/
def globField (files : FileSystem) (base : Place) (field : List Glyph) : List String :=
  let parts := Text.cutWhere (fun c => c.1 == '/') (patternOf field)
  if !parts.any isGlob then [Glyph.text field]
  else
    match matchingFiles files base "" parts with
    | [] => [Glyph.text field]
    | found => Text.inOrder found

end CommandShell.Script
