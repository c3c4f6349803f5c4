import CommandShell.Machine
import CommandShell.Proofs.Spool.Opening

/-!
# Programs that are functions of their input

A program may read its input as it comes, in pieces of any size, and write before it has read it
all. It is a function of its input nonetheless if what it writes on each of its channels does not
depend on the pieces, and if it does nothing else.

## Main statements

- `Process.Returns`: what a process writes for an input, whatever pieces the input comes in.
- `Process.Returns.unique`: it is the input that decides what is written.
- `Process.isFunction_ofFunction`: a process that reads everything and then writes is a function.
-/

namespace CommandShell

/-- The descriptor that a program writes to a channel by. -/
def Channel.descriptor : Channel → Nat
  | .out => 1
  | .err => 2

namespace Process

/-- A process that only reads, writes and looks at things, whatever it is answered. -/
def Plain : Process → Prop
  | .exit _ | .exhausted => True
  | .look next => ∀ files, (next files).Plain
  | .read _ _ _ next => ∀ answer, (next answer).Plain
  | .drain _ _ next => ∀ bytes, (next bytes).Plain
  | .write _ _ next => ∀ answer, (next answer).Plain
  | .inspect _ next => ∀ answer, (next answer).Plain
  | _ => False

/-- Such a process opens nothing. -/
theorem Plain.avoids {process : Process} (h : process.Plain) (origin : FileSystem) (place : Place) :
    process.Avoids origin place := by
  induction process with
  | exit | exhausted => trivial
  | look _ ih | read _ _ _ _ ih | drain _ _ _ ih | write _ _ _ ih | inspect _ _ ih =>
    exact fun answer => ih _ (h answer)
  | _ => exact h.elim

/-- What a process writes on its channels when the bytes that are left of its input are these:
whatever pieces they come in, it makes requests and ends. The number bounds how many turns that
takes, where a byte that is written, or that everything is waited for with, may take a turn of its
own. -/
inductive Returns : Nat → Process → Bytes → (Channel → Bytes) → Prop where
  | exit {n : Nat} {e : Exit} {input : Bytes} {output : Channel → Bytes} (hout : ∀ c,
      output c = []) :
    Returns (n + 1) (.exit e) input output
  | look {n : Nat} {next : FileSystem → Process} {input : Bytes} {output : Channel → Bytes}
    (hnext : ∀ files, Returns n (next files) input output) :
      Returns (n + 1) (.look next) input output
  /-- A program that asks finds a pipe, or nothing, under its input. -/
  | inspectInput {n : Nat} {next : Option Connection → Process} {input : Bytes}
      {output : Channel → Bytes}
    (hnext : Returns n (next (some .other)) input output) :
      Returns (n + 1) (.inspect 0 next) input output
  | inspectOutput {n : Nat} {c : Channel} {next : Option Connection → Process} {input : Bytes}
    {output : Channel → Bytes} (hnext : ∀ connection,
      Returns n (next (some connection)) input output) :
    Returns (n + 1) (.inspect c.descriptor next) input output
  | read {n limit : Nat} {line : Bool} {next : Except Errno ByteArray → Process} {input : Bytes}
    {output : Channel → Bytes} (hlimit : 0 < limit)
    (hnext : ∀ piece rest, input = piece ++ rest → piece.length ≤ limit → (piece = [] → rest = []) →
      Returns n (next (.ok (pack piece))) rest output) :
    Returns (n + 1) (.read 0 limit line next) input output
  | drain {n : Nat} {taken : ByteArray} {next : ByteArray → Process} {input : Bytes}
      {output : Channel → Bytes}
    (hnext : Returns n (next (taken ++ pack input)) [] output) :
    Returns (n + input.length + 1) (.drain 0 taken next) input output
  | write {n : Nat} {c : Channel} {bytes : ByteArray} {next : Except Errno Unit → Process}
      {input : Bytes}
    {output rest : Channel → Bytes} (hnext : Returns n (next (.ok ())) input rest)
    (hout : ∀ c', output c' = (if c' = c then unpack bytes else []) ++ rest c') :
    Returns (n + bytes.size + 1) (.write c.descriptor bytes next) input output

/-- A program that does nothing but write what is a function of its input. -/
structure IsFunction (process : Process) : Prop where
  plain : process.Plain
  returns : ∀ input, ∃ n output, process.Returns n input output

namespace Returns

variable {n m : Nat} {process : Process} {input : Bytes} {output output' : Channel → Bytes}

/-- A process that returns has something to do first. -/
theorem pos (h : process.Returns n input output) : 0 < n := by
  cases h <;> exact Nat.succ_pos _

theorem descriptor_ne_zero (c : Channel) : c.descriptor ≠ 0 := by cases c <;> decide

theorem descriptor_injective {c c' : Channel} (h : c.descriptor = c'.descriptor) : c = c' := by
  cases c <;> cases c' <;> first | rfl | cases h

/-- The input decides what is written. -/
theorem unique (h : process.Returns n input output) (h' : process.Returns m input output') :
    output = output' := by
  induction h generalizing m output' with
  | exit hout =>
    cases h' with
    | exit hout' => exact funext fun c => (hout c).trans (hout' c).symm
  | look _ ih =>
    cases h' with
    | look hnext => exact ih {} (hnext {})
  | inspectInput _ ih =>
    generalize hd : (0 : Nat) = d at h'
    cases h' with
    | inspectInput hnext => exact ih hnext
    | inspectOutput => exact absurd hd.symm (descriptor_ne_zero _)
  | @inspectOutput _ c _ _ _ _ ih =>
    generalize hd : c.descriptor = d at h'
    cases h' with
    | inspectInput => exact absurd hd (descriptor_ne_zero _)
    | inspectOutput hnext => exact ih .other (hnext .other)
  | @read _ limit _ _ input _ hlimit _ ih =>
    cases h' with
    | read _ hnext =>
      have hend : input.take limit = [] → input.drop limit = [] := by
        intro hnone
        rcases List.take_eq_nil_iff.mp hnone with hzero | rfl
        · exact absurd hzero (Nat.ne_of_gt hlimit)
        · exact List.drop_nil
      have hsplit := (List.take_append_drop limit input).symm
      exact ih _ _ hsplit (List.length_take_le ..) hend
        (hnext _ _ hsplit (List.length_take_le ..) hend)
  | drain _ ih =>
    cases h' with
    | drain hnext => exact ih hnext
  | @write _ c bytes _ _ _ _ _ hout ih =>
    generalize hd : c.descriptor = d at h'
    cases h' with
    | write hnext hout' =>
      obtain rfl := descriptor_injective hd
      obtain rfl := ih hnext
      exact funext fun c' => (hout c').trans (hout' c').symm

end Returns

/-- What a process writes that reads its whole input before it does. -/
theorem returns_ofFunction (f : ByteArray → ByteArray × ByteArray × Nat) (input : Bytes) :
    (ofFunction f).Returns (1 + (f (pack input)).2.1.size + 1 + (f (pack input)).1.size + 1 +
      input.length + 1) input fun c => match c with
        | .out => unpack (f (pack input)).1
        | .err => unpack (f (pack input)).2.1 := by
  have hend : (ended (f (pack input)).2.2).Returns 1 [] fun _ => [] := .exit fun _ => rfl
  have herr : (Process.write 2 (f (pack input)).2.1 fun _ => ended (f (pack input)).2.2).Returns
      (1 + (f (pack input)).2.1.size + 1) [] fun c =>
        if c = .err then unpack (f (pack input)).2.1 else [] :=
    .write (c := .err) hend fun c => (List.append_nil _).symm
  have hout : (Process.write 1 (f (pack input)).1 fun _ => .write 2 (f (pack input)).2.1 fun _ =>
      ended (f (pack input)).2.2).Returns
        (1 + (f (pack input)).2.1.size + 1 + (f (pack input)).1.size + 1) [] fun c =>
        match c with
        | .out => unpack (f (pack input)).1
        | .err => unpack (f (pack input)).2.1 :=
    .write (c := .out) herr fun c => by cases c <;> simp
  have hempty : ByteArray.empty ++ pack input = pack input := by simp
  refine .drain ?_
  rwa [hempty]

/-- A process that reads its whole input before it writes is a function of its input. -/
theorem isFunction_ofFunction (f : ByteArray → ByteArray × ByteArray × Nat) :
    (ofFunction f).IsFunction where
  plain _ _ _ := trivial
  returns input := ⟨_, _, returns_ofFunction f input⟩

end Process

/-- A machine all of whose programs are functions of their input, once they have been given their
arguments, their variables and their directory. -/
def Machine.Functional (m : Machine) : Prop :=
  ∀ files place text program, m.load files place text = .ok program → ∀ launch,
    (program launch).IsFunction

end CommandShell
