import CommandShell.Environment
import CommandShell.Text.LineBreak
import CommandShell.World

/-!
# Settings

Settings are kept in a JSON file. Reading them never fails: a file that is missing or is no JSON
object leaves the defaults, and a member of the object overrides the default of its name. One
setting may be changed, the name of the chat model.
-/

namespace CommandShell.Settings

/-- Names with their values. -/
abbrev Config := List (CodeUnits × CodeUnits)

/-- The settings when the file says nothing. -/
def defaults : Config := [(.ofString "model", .ofString "gemini-1.5-flash-latest")]

/-- The settings that may be changed. -/
def settable : List String := ["model"]

/-- The settings that a JSON value overrides. -/
def overlay (config : Config) : Json → Config
  | .obj members => members.foldl (fun config (k, v) => Json.setMember config k v.display) config
  | _ => config

/-- The settings in the content of a file. -/
def ofContent (content : Bytes) : Config :=
  match Utf8.decode? content with
  | none => defaults
  | some text =>
    match Json.parse (Text.unifyNewlines text) with
    | .error _ => defaults
    | .ok v => overlay defaults v

/-- The settings in force. -/
def get (w : World) (p : Path) : Config :=
  match w.read p with
  | .error _ => defaults
  | .ok content => ofContent content

/-- Why a setting was not changed. -/
inductive Failure where
  | unsettable (key : String)
  | unwritable (path : Path) (error : Errno)
  | fault (f : Fault)

/-- The wording of a failure. -/
def Failure.message : Failure → String
  | .unsettable key =>
    "'" ++ key ++ "' cannot be configured (allowed: " ++ String.intercalate ", " settable ++ ")"
  | .unwritable path e => "cannot write " ++ path.text ++ ": " ++ e.text
  | .fault f => f.message

/-- A fault of writing the file at a path. -/
def Failure.ofFault (p : Path) : Fault → Failure
  | .system e _ => .unwritable p e
  | f => .fault f

/-- Change a setting. Missing directories are made for the file. -/
def set (w : World) (p : Path) (key : String) (value : CodeUnits) : World × Except Failure Unit :=
  if !settable.contains key then (w, .error (.unsettable key))
  else
    let config := Json.setMember (get w p) (.ofString key) value
    if Path.hasNull p.parent.text then (w, .error (.fault .embeddedNull))
    else
      match w.files.makeDirs w.directory p.parent.parts.length p.parent with
      | (files, .error e) => ({ w with files }, .error (.unwritable p e))
      | (files, .ok ()) =>
        let w := { w with files }
        match w.writeText p .truncate (Json.renderMembers config) with
        | (w, .error f) => (w, .error (Failure.ofFault p f))
        | (w, .ok ()) => (w, .ok ())

/-- The home directory of the process. Slashes at its end do not matter, and nothing is the root. -/
def homeOf (w : World) : Except Fault Path :=
  let trimmed := ((w.home.getD "").toList.reverse.dropWhile (· == '/')).reverse
  match trimmed with
  | [] => .ok (Path.ofText "/")
  | '~' :: _ => .error .noHome
  | cs => .ok (Path.ofText (String.ofList cs))

/-- Where the settings are kept. -/
def pathFor (w : World) (env : Environment) : Except Fault Path :=
  match env.nonempty? "AI_SHELL_CONFIG" with
  | some path => .ok (Path.ofText path)
  | none => (homeOf w).map fun home => home.join (Path.ofText ".ai-shell/config.json")

end CommandShell.Settings
