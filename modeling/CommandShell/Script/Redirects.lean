import CommandShell.Script.Expand

/-!
# Redirections

Descriptors are led elsewhere, and what they led to before is kept so that it can be restored.
-/

namespace CommandShell.Script

/-- A redirection whose words have been expanded. -/
inductive Outcome where
  | file (use : FileUse) (name : String)
  | descriptor (n : Nat)
  | closed
  | here (number : Nat)

/-- The access that a kind of redirection asks for. -/
def accessOf (noClobber : Bool) : FileUse → Access
  | .input => .input
  | .output =>
    if noClobber then { Access.output with truncate := false, fresh := true } else .output
  | .overwrite => .output
  | .append => .addition
  | .both => .both

/-- The error of a file that cannot be opened. -/
def openError (use : FileUse) (name : String) (e : Errno) : String :=
  let isAbsent := e = .notFound || e = .notDirectory
  if use = .input then
    "cannot open " ++ name ++ ": " ++ (if isAbsent then "No such file" else e.text)
  else "cannot create " ++ name ++ ": " ++ (if isAbsent then "Directory nonexistent" else e.text)

/-- Expand the words of redirections. -/
def expandRedirects (substitute : Command → Act String) (fuel : Nat) :
    List Redirect → Act (List (Nat × Outcome))
  | [] => return []
  | .mk descriptor target :: rest => do
    let outcome ← match target with
      | .file use name => do
        pure (Outcome.file use (← expandText substitute fuel { tilde := true } name))
      | .descriptor n => pure (.descriptor n)
      | .closed => pure .closed
      | .here number => pure (.here number)
      | .named word => do
        match (← expandText substitute fuel { tilde := true } word).toList with
        | ['-'] => pure .closed
        | [c] =>
          if c.isDigit then pure (.descriptor (c.toNat - '0'.toNat))
          else Act.failSyntax { line := (← Act.get).lineRead, message := "Bad fd number" }
        | _ => Act.failSyntax { line := (← Act.get).lineRead, message := "Bad fd number" }
    return (descriptor, outcome) :: (← expandRedirects substitute fuel rest)

/-- The most bytes that are put into a pipe at once. -/
def pipeAtom : Nat := 4096

/-- Let a descriptor lead to a text. -/
def redirectToText (text : String) (descriptor : Nat) : Act Unit := do
  let reader ← Act.reserve
  let writer ← Act.reserve
  Act.pipe reader writer
  if text.length ≤ pipeAtom then
    let _ ← Act.write writer text
  else
    let _ ← Act.fork do
      Act.close reader
      Act.dispose Signal.interrupt .ignored
      Act.dispose Signal.quit .ignored
      let _ ← Act.write writer text
      Act.setStatus 0
  Act.giveBack writer
  let _ ← Act.duplicate reader descriptor
  Act.giveBack reader

/-- Keep where a descriptor leads, unless that has been done already. -/
def keepDescriptor (descriptor : Nat) : Act Unit := do
  let s ← Act.get
  match s.redirected with
  | [] => return
  | frame :: frames =>
    if (frame.lookup descriptor).isSome then return
    let copy ← Act.reserve
    match ← Act.duplicate descriptor copy with
    | .ok _ =>
      Act.modify fun s => { s with redirected := ((descriptor, some copy) :: frame) :: frames }
    | .error _ =>
      Act.giveBack copy
      Act.modify fun s => { s with redirected := ((descriptor, none) :: frame) :: frames }

/-- Lead a descriptor elsewhere. -/
def redirectOne (substitute : Command → Act String) (fuel : Nat) (keeps : Bool) (descriptor : Nat) :
    Outcome → Act Unit
  | .descriptor n => do
    if n = descriptor then return
    if keeps then
      keepDescriptor descriptor
      Act.close descriptor
    match ← Act.duplicate n descriptor with
    | .ok _ => return
    | .error e => Act.fail (toString n ++ ": " ++ e.text)
  | .closed => do
    if keeps then keepDescriptor descriptor
    Act.close descriptor
  | .here number => do
    let word := ((← Act.get).texts.lookup number).getD []
    let text ← expandText substitute fuel { quoted := true } word
    if keeps then keepDescriptor descriptor
    redirectToText text descriptor
  | .file use name => do
    let s ← Act.get
    if keeps then keepDescriptor descriptor
    match ← Act.openFile name (accessOf (s.isOn "noclobber") use) descriptor with
    | .ok _ => return
    | .error e => Act.fail (openError use name e)

/-- Lead descriptors elsewhere. -/
def redirectAll (substitute : Command → Act String) (fuel : Nat) (keeps : Bool) :
    List (Nat × Outcome) → Act Unit
  | [] => return
  | (descriptor, outcome) :: rest => do
    redirectOne substitute fuel keeps descriptor outcome
    redirectAll substitute fuel keeps rest

/-- Lead descriptors elsewhere, for a while; the result is whether that worked. -/
def redirectForNow (substitute : Command → Act String) (fuel : Nat)
    (outcomes : List (Nat × Outcome)) : Act Bool := do
  if outcomes.isEmpty then return true
  Act.modify fun s => { s with redirected := [] :: s.redirected }
  match ← Act.attempt (redirectAll substitute fuel true outcomes) with
  | .ok _ => return true
  | .error .failed => return false
  | .error flow => Act.leave flow

/-- Let descriptors lead again to where they led before, or forget about that. -/
def restoreFrame (forget : Bool) : List (Nat × Option Nat) → Act Unit
  | [] => return
  | (descriptor, some copy) :: rest => do
    if !forget then
      let _ ← Act.duplicate copy descriptor
    Act.giveBack copy
    restoreFrame forget rest
  | (descriptor, none) :: rest => do
    if !forget then Act.close descriptor
    restoreFrame forget rest

/-- End the redirections that were made last. -/
def restoreRedirects (forget : Bool) : Act Unit := do
  let s ← Act.get
  match s.redirected with
  | [] => return
  | frame :: frames => do
    Act.set { s with redirected := frames }
    restoreFrame forget frame

/-- End redirections until only so many are left. -/
def unwindRedirects (depth : Nat) : Nat → Act Unit
  | 0 => return
  | fuel + 1 => do
    if (← Act.get).redirected.length ≤ depth then return
    restoreRedirects false
    unwindRedirects depth fuel

/-- End everything that is done for a while, until only so much of it is left. -/
def unwind (redirects kept : Nat) : Act Unit := do
  let s ← Act.get
  if s.redirected.length > redirects then unwindRedirects redirects s.redirected.length
  if s.kept.length > kept then Act.unwindKept kept s.kept.length

end CommandShell.Script
