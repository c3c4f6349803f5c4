import CommandShell.Script.Binding

/-!
# Conditions

The conditions that `test` decides: about texts, about numbers and about files. A word is an
operator or an operand, depending on the words that follow it.
-/

namespace CommandShell.Script.Condition

/-- Conditions on one operand. -/
inductive Unary where
  | isEmpty
  | isNotEmpty
  | isTerminal
  | exists
  | isFile
  | isDirectory
  | isDevice
  | isPipe
  | isLink
  | isExecutable
  | hasContent
  /-- Something that no file here is. -/
  | never
  deriving DecidableEq, Repr

/-- Conditions on two operands. -/
inductive Binary where
  | equal
  | unequal
  | before
  | after
  | numbers (holds : Int → Int → Bool)
  | isNewer
  | isOlder
  | isSame

inductive Operator where
  | unary (u : Unary)
  | binary (b : Binary)
  | not
  | and
  | or
  | open
  | close

/-- The operators by their texts. -/
def operators : List (String × Operator) :=
  [("-r", .unary .exists), ("-w", .unary .exists), ("-x", .unary .isExecutable),
    ("-e", .unary .exists),
   ("-f", .unary .isFile), ("-d", .unary .isDirectory), ("-c", .unary .isDevice),
     ("-b", .unary .never),
   ("-p", .unary .isPipe), ("-u", .unary .never), ("-g", .unary .never), ("-k", .unary .never),
   ("-s", .unary .hasContent), ("-t", .unary .isTerminal), ("-z", .unary .isEmpty),
   ("-n", .unary .isNotEmpty), ("-h", .unary .isLink), ("-O", .unary .exists),
     ("-G", .unary .exists),
   ("-L", .unary .isLink), ("-S", .unary .never), ("=", .binary .equal), ("!=", .binary .unequal),
   ("<", .binary .before), (">", .binary .after), ("-eq", .binary (.numbers (· == ·))),
   ("-ne", .binary (.numbers (· != ·))), ("-ge", .binary (.numbers (· ≥ ·))),
   ("-gt", .binary (.numbers (· > ·))), ("-le", .binary (.numbers (· ≤ ·))),
   ("-lt", .binary (.numbers (· < ·))), ("-nt", .binary .isNewer), ("-ot", .binary .isOlder),
   ("-ef", .binary .isSame), ("!", .not), ("-a", .and), ("-o", .or), ("(", .open), (")", .close)]

def operator? (text : String) : Option Operator := operators.lookup text

def isBinary (text : String) : Bool :=
  match operator? text with
  | some (.binary _) => true
  | _ => false

/-- What a condition is decided by. -/
structure Subject where
  words : Array String
  files : FileSystem
  directory : Place

/-- What a word is, given those that follow it. -/
inductive Role where
  | operator (o : Operator)
  | operand
  | missing

namespace Subject

def word? (s : Subject) (i : Nat) : Option String := s.words[i]?

/-- A word with the form of an operator is an operand if a comparison follows it or nothing does. -/
def role (s : Subject) (i : Nat) : Role :=
  match s.word? i with
  | none => .missing
  | some w =>
    match operator? w with
    | none => .operand
    | some (.unary u) =>
      let isOperand := match s.word? (i + 1), s.word? (i + 2) with
        | none, _ => true
        | some _, none => false
        | some next, some _ => isBinary next
      if isOperand then .operand else .operator (.unary u)
    | some .open => if (s.word? (i + 1)).isNone then .operand else .operator .open
    | some o => .operator o

/-- Where a name leads and what stands there. -/
def node? (s : Subject) (name : String) : Option (Place × Node) :=
  (s.files.statText s.directory (textOf name)).toOption

def isLink (s : Subject) (name : String) : Bool :=
  match s.files.locateText .look s.directory (textOf name) with
  | .ok (_, some (.link _)) => true
  | _ => false

end Subject

def number (text : String) : Except String Int :=
  match integer? text with
  | some n => .ok n
  | none => .error ("Illegal number: " ++ text)

def unary (s : Subject) (u : Unary) (operand : String) : Except String Bool :=
  let onNode (q : Node → Bool) : Except String Bool := .ok ((s.node? operand).any fun n => q n.2)
  match u with
  | .isEmpty => .ok (operand == "")
  | .isNotEmpty => .ok (operand != "")
  | .isTerminal => (number operand).map fun _ => false
  | .exists => onNode fun _ => true
  | .isFile => onNode FileSystem.isFileNode
  | .isDirectory => onNode FileSystem.isDirNode
  | .isDevice => onNode (· == .null)
  | .isPipe => onNode (· == .pipe)
  | .isLink => .ok (s.isLink operand)
  | .isExecutable =>
    onNode fun node => FileSystem.isExecutableNode node || FileSystem.isDirNode node
  | .hasContent => onNode fun
    | .file content _ => content.size != 0
    | .dir => true
    | _ => false
  | .never => .ok false

def binary (s : Subject) (b : Binary) (left right : String) : Except String Bool :=
  let stamps (q : Nat → Nat → Bool) : Except String Bool :=
    match s.node? left, s.node? right with
    | some (l, _), some (r, _) => .ok (q (s.files.stamp l) (s.files.stamp r))
    | _, _ => .ok false
  match b with
  | .equal => .ok (left == right)
  | .unequal => .ok (left != right)
  | .before => .ok (left < right)
  | .after => .ok (right < left)
  | .numbers holds => do
    let l ← number left
    let r ← number right
    return holds l r
  | .isNewer => stamps (· > ·)
  | .isOlder => stamps (· < ·)
  | .isSame =>
    match s.node? left, s.node? right with
    | some (l, _), some (r, _) => .ok (l == r)
    | _, _ => .ok false

mutual

/-- Conditions joined by `-o`; the index is that of the last word that was read. -/
def disjunction (s : Subject) : Nat → Role → Nat → Except String (Bool × Nat)
  | 0, _, _ => .error "argument expected"
  | fuel + 1, role, i => do
    let (a, i) ← conjunction s fuel role i
    match s.role (i + 1) with
    | .operator .or => do
      let (b, i) ← disjunction s fuel (s.role (i + 2)) (i + 2)
      return (a || b, i)
    | _ => return (a, i)

/-- Conditions joined by `-a`. -/
def conjunction (s : Subject) : Nat → Role → Nat → Except String (Bool × Nat)
  | 0, _, _ => .error "argument expected"
  | fuel + 1, role, i => do
    let (a, i) ← negation s fuel role i
    match s.role (i + 1) with
    | .operator .and => do
      let (b, i) ← conjunction s fuel (s.role (i + 2)) (i + 2)
      return (a && b, i)
    | _ => return (a, i)

/-- A condition, perhaps negated. -/
def negation (s : Subject) : Nat → Role → Nat → Except String (Bool × Nat)
  | 0, _, _ => .error "argument expected"
  | fuel + 1, role, i =>
    match role with
    | .operator .not => do
      let next := s.role (i + 1)
      let i := match next with
        | .missing => i
        | _ => i + 1
      let (a, i) ← negation s fuel next i
      return (!a, i)
    | role => primary s fuel role i

/-- A single condition. -/
def primary (s : Subject) : Nat → Role → Nat → Except String (Bool × Nat)
  | 0, _, _ => .error "argument expected"
  | fuel + 1, role, i =>
    let word := (s.word? i).getD ""
    match role with
    | .missing => .ok (false, i)
    | .operator .open =>
      match s.role (i + 1) with
      | .operator .close => .ok (false, i + 1)
      | inner => do
        let (a, i) ← disjunction s fuel inner (i + 1)
        match s.role (i + 1) with
        | .operator .close => return (a, i + 1)
        | _ => .error "closing paren expected"
    | .operator (.unary u) =>
      match s.word? (i + 1) with
      | none => .error (word ++ ": argument expected")
      | some operand => (unary s u operand).map fun a => (a, i + 1)
    | _ =>
      match s.role (i + 1) with
      | .operator (.binary b) =>
        match s.word? (i + 2) with
        | none => .error ((s.word? (i + 1)).getD "" ++ ": argument expected")
        | some right => (binary s b word right).map fun a => (a, i + 2)
      | _ => .ok (word != "", i)

end

/-- Whether the condition of some words holds; one exclamation mark in front counts as much as
two. -/
def decideWords (files : FileSystem) (directory : Place) : Nat → Bool → List String →
    Except String Bool
  | 0, _, _ => .error "argument expected"
  | fuel + 1, negated, words =>
    let whole (words : List String) (operand : Bool) : Except String Bool := do
      let s : Subject := { words := words.toArray, files, directory }
      let first := if operand then Role.operand else s.role 0
      let (a, i) ← disjunction s (4 * words.length + 8) first 0
      match s.word? i, s.word? (i + 1) with
      | some w, some _ => .error ((if w = "" then "" else w ++ ": ") ++ "unexpected operator")
      | _, _ => return a != negated
    if words.isEmpty then .ok negated
    else if words.length = 3 && words[1]?.any isBinary then whole words true
    else if words.length = 3 || words.length = 4 then
      if words.head? = some "(" && words.getLast? = some ")" then
        whole (words.drop 1).dropLast false
      else if words.head? = some "!" then decideWords files directory fuel true (words.drop 1)
      else whole words false
    else whole words false

/-- Whether a condition holds. -/
def holds (files : FileSystem) (directory : Place) (words : List String) : Except String Bool :=
  decideWords files directory (words.length + 1) false words

end CommandShell.Script.Condition
