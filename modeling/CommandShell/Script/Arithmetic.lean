import CommandShell.Script.Binding

/-!
# Arithmetic expressions

Integer expressions on words of 64 bits. An operand that does not count is read and not evaluated.
-/

namespace CommandShell.Script.Arithmetic

/-- The operators between two operands. -/
inductive Operator where
  | multiply | divide | remainder | add | subtract | shiftLeft | shiftRight
  | less | lessEqual | greater | greaterEqual | equal | unequal | bitAnd | bitXor | bitOr
  deriving DecidableEq, Repr

namespace Operator

/-- Operators of a lower rank bind closer. -/
def rank : Operator → Nat
  | .multiply | .divide | .remainder => 0
  | .add | .subtract => 1
  | .shiftLeft | .shiftRight => 2
  | .less | .lessEqual | .greater | .greaterEqual => 3
  | .equal | .unequal => 4
  | .bitAnd => 5
  | .bitXor => 6
  | .bitOr => 7

/-- One more than every rank. -/
def loosest : Nat := 8

end Operator

inductive Token where
  | end
  | bad
  | number (n : Int)
  | name (name : String)
  | operator (o : Operator)
  /-- An assignment, perhaps of the result of an operator. -/
  | assign (o : Option Operator)
  | and
  | or
  | not
  | complement
  | open
  | close
  | question
  | colon
  deriving DecidableEq, Repr

/-- How many words there are. -/
def wordCount : Nat := 0x10000000000000000

/-- The signed word that agrees with a number in its lowest bits. -/
def wrap (n : Int) : Int := Int.bmod n wordCount

/-- The unsigned word that agrees with a number in its lowest bits. -/
def unsigned (n : Int) : Nat := (n % (wordCount : Int)).toNat

/-- What a shift by so many bits multiplies with. -/
def shiftFactor (n : Int) : Nat := Nat.pow 2 (n % 64).toNat

def digitIn? (base : Nat) (c : Char) : Option Nat :=
  let v :=
    if c.isDigit then c.toNat - '0'.toNat
    else if 'a' ≤ c && c ≤ 'z' then c.toNat - 'a'.toNat + 10
    else if 'A' ≤ c && c ≤ 'Z' then c.toNat - 'A'.toNat + 10
    else base
  if v < base then some v else none

/-- The digits at the start as a number, and what follows them. -/
def numberIn (base : Nat) (cs : List Char) : Nat × List Char :=
  let ds := cs.takeWhile fun c => (digitIn? base c).isSome
  (ds.foldl (fun n c => base * n + (digitIn? base c).getD 0) 0, cs.drop ds.length)

/-- A number in hexadecimal, octal or decimal. -/
def readNumber (cs : List Char) : Nat × List Char :=
  let hexadecimal (rest : List Char) : Nat × List Char :=
    if rest.head?.any fun c => (digitIn? 16 c).isSome then numberIn 16 rest else (0, cs.drop 1)
  match cs with
  | '0' :: 'x' :: rest | '0' :: 'X' :: rest => hexadecimal rest
  | '0' :: rest => numberIn 8 rest
  | cs => numberIn 10 cs

/-- The nearest number of 64 bits with a sign. -/
def clamp (n : Int) : Int := max (-(largest : Int) - 1) (min n largest)

/-- The tokens of an expression. After a bad character there are none. -/
def tokens : Nat → List Char → List Token
  | 0, _ => [.end]
  | fuel + 1, cs =>
    let one (t : Token) (rest : List Char) : List Token := t :: tokens fuel rest
    let assigns (o : Operator) (rest : List Char) : List Token :=
      match rest with
      | '=' :: rest => one (.assign (some o)) rest
      | rest => one (.operator o) rest
    match cs with
    | [] => [.end]
    | ' ' :: rest | '\t' :: rest | '\n' :: rest => tokens fuel rest
    | '=' :: '=' :: rest => one (.operator .equal) rest
    | '=' :: rest => one (.assign none) rest
    | '>' :: '=' :: rest => one (.operator .greaterEqual) rest
    | '>' :: '>' :: rest => assigns .shiftRight rest
    | '>' :: rest => one (.operator .greater) rest
    | '<' :: '=' :: rest => one (.operator .lessEqual) rest
    | '<' :: '<' :: rest => assigns .shiftLeft rest
    | '<' :: rest => one (.operator .less) rest
    | '|' :: '|' :: rest => one .or rest
    | '|' :: rest => assigns .bitOr rest
    | '&' :: '&' :: rest => one .and rest
    | '&' :: rest => assigns .bitAnd rest
    | '!' :: '=' :: rest => one (.operator .unequal) rest
    | '!' :: rest => one .not rest
    | '(' :: rest => one .open rest
    | ')' :: rest => one .close rest
    | '*' :: rest => assigns .multiply rest
    | '/' :: rest => assigns .divide rest
    | '%' :: rest => assigns .remainder rest
    | '+' :: rest => assigns .add rest
    | '-' :: rest => assigns .subtract rest
    | '~' :: rest => one .complement rest
    | '^' :: rest => assigns .bitXor rest
    | '?' :: rest => one .question rest
    | ':' :: rest => one .colon rest
    | c :: rest =>
      if c.isDigit then
        let (n, rest) := readNumber cs
        one (.number (clamp n)) rest
      else if isNameStart c then
        one (.name (String.ofList (cs.takeWhile isNameChar))) (rest.dropWhile isNameChar)
      else [.bad]

/-- Why an expression has no value. -/
inductive Failure where
  | malformed (message : String)
  | illegalNumber (text : String)
  | readOnly (name : String)
  /-- The quotient does not fit into a word. -/
  | overflow
  deriving DecidableEq, Repr

/-- What an evaluation works on. -/
structure Progress where
  /-- The tokens that have not been read; the last one is never used up. -/
  rest : List Token
  /-- The token after the last operand. -/
  next : Token := .end
  lookup : String → Option String
  isReadOnly : String → Bool
  /-- What has been assigned, newest first. -/
  assigned : List (String × Int) := []

abbrev Eval := ExceptT Failure (StateM Progress)

def take : Eval Token := modifyGet fun p =>
  match p.rest with
  | [] => (.end, p)
  | [t] => (t, p)
  | t :: rest => (t, { p with rest })

def setNext (t : Token) : Eval Unit := modify fun p => { p with next := t }

/-- The number that a value stands for; blanks stand for zero. -/
def valueOf? (text : String) : Option Int :=
  let (negative, cs) := splitSign text.toList
  if cs.head?.any Char.isDigit then
    let (n, rest) := readNumber cs
    let n : Int := if negative then -(n : Int) else n
    if rest.all isSpace && fits n then some n else none
  else if text.toList.all isSpace then some 0
  else none

/-- The number that a variable holds. -/
def valueOf (name : String) : Eval Int := do
  let p ← get
  match p.assigned.lookup name with
  | some n => return n
  | none =>
    let text := (p.lookup name).getD ""
    match valueOf? text with
    | some n => return n
    | none => throw (.illegalNumber text)

def assign (name : String) (n : Int) : Eval Int := do
  if (← get).isReadOnly name then throw (.readOnly name)
  modify fun p => { p with assigned := (name, n) :: p.assigned }
  return n

def truth (b : Bool) : Int := if b then 1 else 0

/-- The result of an operator. -/
def apply (o : Operator) (a b : Int) : Eval Int := do
  let bits (f : Nat → Nat → Nat) : Int := wrap (f (unsigned a) (unsigned b))
  match o with
  | .multiply => return wrap (a * b)
  | .divide | .remainder =>
    if b = 0 then throw (.malformed "division by zero")
    if b = -1 && a = -(largest : Int) - 1 then throw .overflow
    return if o = .divide then Int.tdiv a b else Int.tmod a b
  | .add => return wrap (a + b)
  | .subtract => return wrap (a - b)
  | .shiftLeft => return wrap (a * (shiftFactor b : Int))
  | .shiftRight => return a / (shiftFactor b : Int)
  | .less => return truth (a < b)
  | .lessEqual => return truth (a ≤ b)
  | .greater => return truth (a > b)
  | .greaterEqual => return truth (a ≥ b)
  | .equal => return truth (a == b)
  | .unequal => return truth (a != b)
  | .bitAnd => return bits Nat.land
  | .bitXor => return bits Nat.xor
  | .bitOr => return bits Nat.lor

mutual

/-- An operand that begins with a token; `second` is the token after it. -/
def primary : Nat → Bool → Token → Token → Eval Int
  | 0, _, _, _ => throw (.malformed "expecting primary")
  | fuel + 1, idle, first, second => do
    match first with
    | .open => do
      let n ← assignment fuel idle second
      if (← get).next ≠ .close then throw (.malformed "expecting ')'")
      setNext (← take)
      return n
    | .number n => do
      setNext second
      return n
    | .name name => do
      setNext second
      if idle then return 0 else valueOf name
    | .operator .add => do primary fuel idle second (← take)
    | .operator .subtract => do return wrap (-(← primary fuel idle second (← take)))
    | .not => do return truth ((← primary fuel idle second (← take)) == 0)
    | .complement => do return -(← primary fuel idle second (← take)) - 1
    | _ => throw (.malformed "expecting primary")

/-- Operators that bind closer than a rank, applied to a first operand. -/
def binary : Nat → Bool → Int → Operator → Nat → Eval Int
  | 0, _, _, _, _ => throw (.malformed "expecting primary")
  | fuel + 1, idle, a, o, rank => do
    let first ← take
    let b ← primary fuel idle first (← take)
    let b ← match (← get).next with
      | .operator o' => if o'.rank < o.rank then binary fuel idle b o' o.rank else pure b
      | _ => pure b
    let a ← if idle then pure b else apply o a b
    match (← get).next with
    | .operator o' => if o'.rank < rank then binary fuel idle a o' rank else return a
    | _ => return a

/-- Operators between two operands. -/
def operations : Nat → Bool → Token → Token → Eval Int
  | 0, _, _, _ => throw (.malformed "expecting primary")
  | fuel + 1, idle, first, second => do
    let a ← primary fuel idle first second
    match (← get).next with
    | .operator o => binary fuel idle a o Operator.loosest
    | _ => return a

def conjunction : Nat → Bool → Token → Token → Eval Int
  | 0, _, _, _ => throw (.malformed "expecting primary")
  | fuel + 1, idle, first, second => do
    let a ← operations fuel idle first second
    if (← get).next ≠ .and then return a
    let first ← take
    let b ← conjunction fuel (idle || a == 0) first (← take)
    return truth (a != 0 && b != 0)

def disjunction : Nat → Bool → Token → Token → Eval Int
  | 0, _, _, _ => throw (.malformed "expecting primary")
  | fuel + 1, idle, first, second => do
    let a ← conjunction fuel idle first second
    if (← get).next ≠ .or then return a
    let first ← take
    let b ← disjunction fuel (idle || a != 0) first (← take)
    return truth (a != 0 || b != 0)

/-- A choice between two expressions. -/
def choice : Nat → Bool → Token → Token → Eval Int
  | 0, _, _, _ => throw (.malformed "expecting primary")
  | fuel + 1, idle, first, second => do
    let a ← disjunction fuel idle first second
    if (← get).next ≠ .question then return a
    let b ← assignment fuel (idle || a == 0) (← take)
    if (← get).next ≠ .colon then throw (.malformed "expecting ':'")
    let first ← take
    let c ← choice fuel (idle || a != 0) first (← take)
    return if a != 0 then b else c

/-- An assignment or a choice that begins with a token. -/
def assignment : Nat → Bool → Token → Eval Int
  | 0, _, _ => throw (.malformed "expecting primary")
  | fuel + 1, idle, first => do
    let second ← take
    match first, second with
    | .name name, .assign o => do
      let n ← assignment fuel idle (← take)
      if idle then return n
      match o with
      | none => assign name n
      | some o => do
        let n ← apply o (← valueOf name) n
        assign name n
    | _, _ => choice fuel idle first second

end

/-- A whole expression. -/
def whole (fuel : Nat) : Eval Int := do
  let n ← assignment fuel false (← take)
  if (← get).next ≠ .end then throw (.malformed "expecting EOF")
  return n

/-- The value of an expression, and what has been assigned on the way, oldest first. -/
def evaluate (lookup : String → Option String) (isReadOnly : String → Bool) (expression : String) :
    Except Failure Int × List (String × Int) :=
  let cs := expression.toList
  let rest := tokens (cs.length + 1) cs
  let (result, p) := (whole (16 * rest.length + 16)).run { rest, lookup, isReadOnly }
  (result, p.assigned.reverse)

end CommandShell.Script.Arithmetic
