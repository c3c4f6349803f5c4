import CommandShell.Errno
import CommandShell.Json.Printer
import CommandShell.Json.Parser
import CommandShell.Path

/-!
# Faults

What can go wrong beyond a command's own failure. A fault names its cause; `Fault.message` is its
wording and `Fault.kind` its class. `Halt` is a way in which a command ends without a status.
-/

namespace CommandShell

namespace Fault

/-- The classes of faults. -/
inductive Kind where
  | system
  | value
  | decoding
  | overflow
  | runtime
  | type
  | key
  | attribute
  deriving DecidableEq, Repr

end Fault

inductive Fault where
  /-- The system refused an operation on a file. -/
  | system (error : Errno) (path : Path)
  /-- The links on the way of a path lead round in a circle. -/
  | linkLoop (path : Path)
  /-- A name or an argument for the system holds a null character. -/
  | embeddedNull
  /-- A variable handed to a program has an equals sign in its name. -/
  | illegalVariable
  /-- A pipeline without stages. -/
  | noStages
  | unknownLevel (name : String)
  | negativeCapacity
  /-- A capacity that does not fit into a machine word. -/
  | hugeCapacity
  /-- An object that is no step of a conversation. -/
  | malformedStep (value : Json)
  /-- A step that is no object at all. -/
  | notAnObject (value : Json)
  /-- A command line that is no text. -/
  | notALine (value : Json)
  | badJson (source : String) (error : Json.ParseError)
  /-- Commands run on behalf of commands, too deep. -/
  | tooDeep
  /-- The home directory of the user is unknown. -/
  | noHome
  /-- A text of code units that are no whole characters was to be encoded. -/
  | unencodable (units : CodeUnits)
  /-- A chat client failed. -/
  | client (kind : Fault.Kind) (message : String)

namespace Fault

/-- The type of a value, as messages name it. -/
def typeName : Json → String
  | .null => "NoneType"
  | .bool _ => "bool"
  | .int _ => "int"
  | .float _ => "float"
  | .str _ => "str"
  | .arr _ => "list"
  | .obj _ => "dict"

/-- The class of a fault. -/
def kind : Fault → Kind
  | .system _ _ => .system
  | .linkLoop _ => .runtime
  | .embeddedNull => .value
  | .illegalVariable => .value
  | .noStages => .value
  | .unknownLevel _ => .value
  | .negativeCapacity => .value
  | .hugeCapacity => .overflow
  | .malformedStep _ => .value
  | .notAnObject _ => .type
  | .notALine (.arr _) => .attribute
  | .notALine (.obj _) => .key
  | .notALine _ => .type
  | .badJson _ (.problem _ _) => .decoding
  | .badJson _ (.tooManyDigits _) => .value
  | .tooDeep => .runtime
  | .noHome => .runtime
  | .unencodable _ => .value
  | .client k _ => k

/-- What keeps a text from being encoded: the first halves of pairs that stand alone. -/
def unencodableMessage (units : CodeUnits) : String :=
  let letters := units.letters
  let start := (letters.takeWhile fun l => !l.isHalf).length
  let halves := (letters.drop start).takeWhile CodeUnits.Letter.isHalf
  let what := match halves with
    | [l] => "character '" ++ Text.quoteLetter '\'' l ++ "' in position " ++ toString start
    | _ =>
      "characters in position " ++ toString start ++ "-" ++ toString (start + halves.length - 1)
  "'utf-8' codec can't encode " ++ what ++ ": surrogates not allowed"

/-- The wording of a fault. -/
def message : Fault → String
  | .system e path => e.about (Text.quoted path.text)
  | .linkLoop path => "Symlink loop from " ++ Text.quoted path.text
  | .embeddedNull => "embedded null byte"
  | .illegalVariable => "illegal environment variable name"
  | .noStages => "a pipeline needs at least one stage"
  | .unknownLevel name => "unknown log level '" ++ name ++ "'"
  | .negativeCapacity => "maxlen must be non-negative"
  | .hugeCapacity => "Python int too large to convert to C ssize_t"
  | .malformedStep v => "malformed step: " ++ v.literal
  | .notAnObject (.arr _) => "list indices must be integers or slices, not str"
  | .notAnObject (.str _) => "string indices must be integers, not 'str'"
  | .notAnObject v => "'" ++ typeName v ++ "' object is not subscriptable"
  | .notALine (.arr _) => "'list' object has no attribute 'strip'"
  | .notALine (.obj _) => "0"
  | .notALine v => "object of type '" ++ typeName v ++ "' has no len()"
  | .badJson source e => e.message source
  | .tooDeep => "maximum recursion depth exceeded"
  | .noHome => "Could not determine home directory."
  | .unencodable units => unencodableMessage units
  | .client .key message => Text.quoted message
  | .client _ message => message

/-- Whether a conversation reports the fault instead of passing it on. -/
def isReported (f : Fault) : Bool :=
  match f.kind with
  | .system | .value | .decoding | .runtime => true
  | .overflow | .type | .key | .attribute => false

end Fault

/-- A way to end without a status. -/
inductive Halt where
  /-- The shell is asked to stop. -/
  | exit (code : Int)
  /-- Ctrl+C. -/
  | interrupt
  | fault (f : Fault)

end CommandShell
