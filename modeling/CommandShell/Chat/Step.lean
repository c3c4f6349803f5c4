import CommandShell.Fault

/-!
# Steps of a conversation

A chat model answers in steps. A step has a kind, a text, and for an action the tool and its input,
which may be any JSON value; null stands for an absent one.
-/

namespace CommandShell.Chat

inductive StepKind where
  | think
  | action
  | output
  | observe
  deriving DecidableEq, Repr

namespace StepKind

def name : StepKind → String
  | .think => "think"
  | .action => "action"
  | .output => "output"
  | .observe => "observe"

def all : List StepKind := [.think, .action, .output, .observe]

def ofName? (name : String) : Option StepKind := all.find? fun k => k.name == name

end StepKind

structure Step where
  kind : StepKind
  content : CodeUnits := []
  tool : Json := .null
  input : Json := .null

namespace Step

/-- The kind that a value names. -/
def kindOf? : Json → Option StepKind
  | .str name => StepKind.all.find? fun k => CodeUnits.ofString k.name = name
  | _ => none

/-- A text for the content of a step: nothing for an empty value. -/
def contentOf (v : Json) : CodeUnits := if v.isEmpty then [] else v.display

/-- The value of a member. -/
def field? (members : List (CodeUnits × Json)) (name : String) : Option Json :=
  Json.member? members (.ofString name)

/-- A step read from a JSON object. -/
def ofJson : Json → Except Fault Step
  | .obj members =>
    match (field? members "step").bind kindOf? with
    | none => .error (.malformedStep (.obj members))
    | some kind => .ok {
        kind
        content := contentOf ((field? members "content").getD .null)
        tool := (field? members "tool").getD .null
        input := (field? members "input").getD .null }
  | v => .error (.notAnObject v)

/-- A step read from a text. -/
def ofText (source : String) : Except Fault Step :=
  match Json.parse source with
  | .error e => .error (.badJson source e)
  | .ok v => ofJson v

/-- A member that is left out when its value is null. -/
def presentMember (name : String) : Json → List (CodeUnits × Json)
  | .null => []
  | v => [(.ofString name, v)]

/-- The step as a JSON object; absent fields are left out. -/
def toJson (s : Step) : Json :=
  .obj ([(.ofString "step", .str (.ofString s.kind.name)), (.ofString "content", .str s.content)] ++
    presentMember "tool" s.tool ++ presentMember "input" s.input)

/-- The step as the message that is sent to a chat model. -/
def encode (s : Step) : String := s.toJson.render

/-- The message that reports an observation. -/
def observation (content : CodeUnits) : String := encode { kind := .observe, content }

end Step

end CommandShell.Chat
