import CommandShell.Proofs.Flow.Function
import CommandShell.Proofs.Flow.System
import Mathlib.Algebra.BigOperators.Group.Finset.Basic

/-!
# Chains of programs

The programs of a pipeline are a chain: each one reads from a pipe what the one before it writes
there. While they run, what is in a pipe and what its writer is still going to write are together
what its reader is still going to read. An outlook says what everybody is still going to write, and
what has come out at the end of the chain.

## Main statements

- `Chain.Flows`: a system in which the programs of a chain are at work.
- `Chain.Evolves`: how far such a system may have come, and that it is a preorder.
- `Chain.Flows.isHeld_reader`, `Chain.Flows.isHeld_writer`: who holds the ends of a pipe.
-/

namespace CommandShell

/-- Bytes that are written on two channels, in order. -/
abbrev Account := List (Channel × UInt8)

namespace Account

/-- Bytes on one channel. -/
def of (c : Channel) (bytes : Bytes) : Account := bytes.map fun b => (c, b)

/-- The bytes on a channel. -/
def on (a : Account) (c : Channel) : Bytes := (a.filter fun x => x.1 = c).map Prod.snd

/-- The bytes that come to where the output goes, if errors go there as well or not. -/
def taken (merges : Bool) (a : Account) : Bytes :=
  (a.filter fun x => x.1 = .out || merges).map Prod.snd

@[simp] theorem on_nil (c : Channel) : on [] c = [] := rfl

@[simp] theorem taken_nil (merges : Bool) : taken merges [] = [] := rfl

theorem on_append (a b : Account) (c : Channel) : on (a ++ b) c = a.on c ++ b.on c := by simp [on]

theorem taken_append (merges : Bool) (a b : Account) :
    taken merges (a ++ b) = a.taken merges ++ b.taken merges := by simp [taken]

theorem on_of (c c' : Channel) (bytes : Bytes) :
    (of c bytes).on c' = if c' = c then bytes else [] := by
  by_cases h : c' = c
  · simp [of, on, h, List.filter_map, Function.comp_def]
  · simp [of, on, h, Ne.symm h, List.filter_map, Function.comp_def]

theorem taken_of (merges : Bool) (c : Channel) (bytes : Bytes) :
    (of c bytes).taken merges = if c = .out || merges then bytes else [] := by
  unfold of taken
  rw [List.filter_map, List.map_map]
  split <;> simp_all [Function.comp_def]

end Account

/-- What is still to come: what each program, or builtin, is going to write on its channels, how
many turns it may still need, and what has come out at the end of the chain. -/
structure Outlook where
  coming : Nat → Channel → Bytes
  work : Nat → Nat
  arrived : Bytes

/-- The outlook after a program has done something. -/
def Outlook.set (o : Outlook) (i n : Nat) (output : Channel → Bytes) (arrived : Bytes) :
    Outlook where
  coming := Function.update o.coming i output
  work := Function.update o.work i n
  arrived := arrived

section Set

variable (o : Outlook) (i n : Nat) (output : Channel → Bytes) (arrived : Bytes)

@[simp] theorem Outlook.coming_set_self : (o.set i n output arrived).coming i = output := by
  simp [set]

@[simp] theorem Outlook.coming_set_of_ne {j : Nat} (h : j ≠ i) :
    (o.set i n output arrived).coming j = o.coming j := by
  simp [set, h]

@[simp] theorem Outlook.work_set_self : (o.set i n output arrived).work i = n := by simp [set]

@[simp] theorem Outlook.work_set_of_ne {j : Nat} (h : j ≠ i) :
    (o.set i n output arrived).work j = o.work j := by
  simp [set, h]

@[simp] theorem Outlook.arrived_set : (o.set i n output arrived).arrived = arrived := rfl

end Set

/-- A chain of programs. -/
structure Chain where
  /-- The number of the first pipe; the others follow it. -/
  base : Nat
  /-- How many stages there are. -/
  length : Nat
  port : Port
  /-- The errors of the last program go where its output goes. -/
  merges : Bool

/-- A task that has ended and is waited for by the shell. -/
structure Task.Corpse (t : Task) : Prop where
  ended : t.ended.isSome = true
  descriptors : t.descriptors = []
  pid : t.pid ≠ Kernel.shellPid
  parent : t.parent = Kernel.shellPid
  wakeAt : t.wakeAt = none

namespace Chain

variable (C : Chain)

/-- What the program of a stage reads from. -/
def input : Nat → Handle
  | 0 => .null
  | i + 1 => .reader (C.base + i)

/-- What the program of a stage writes to. -/
def output (i : Nat) : Handle := if i + 1 < C.length then .writer (C.base + i) else C.port.handle

/-- A task that runs the program of a stage, as the shell has started it. -/
structure Mans (i : Nat) (err : Handle) (t : Task) : Prop where
  descriptors : t.descriptors = [(0, C.input i), (1, C.output i), (2, err)]
  pid : t.pid ≠ Kernel.shellPid
  parent : t.parent = Kernel.shellPid
  ignored : t.ignored = []
  caught : t.caught = []
  pending : t.pending = []
  wakeAt : t.wakeAt = none
  stopped : t.stopped = false
  ended : t.ended = none

/-- The program of a stage runs. -/
def Manned (k : Kernel) (i : Nat) : Prop := ∃ t ∈ k.tasks, ∃ err, C.Mans i err t

/-- What the program of a stage is still going to read. -/
def supply (o : Outlook) (k : Kernel) : Nat → Bytes
  | 0 => []
  | i + 1 => unpack (k.pipeContent (C.base + i)) ++ o.coming i .out

/-- A task that runs the program of a stage. -/
structure Works (o : Outlook) (k : Kernel) (i : Nat) (err : Handle) (t : Task) : Prop where
  mans : C.Mans i err t
  stage : i < C.length
  takes : k.Takes err
  merged : i + 1 = C.length → C.merges = true → err = C.port.handle
  apart : err = C.port.handle → (i + 1 = C.length ∧ C.merges = true) ∨ C.port = .nowhere
  returns : t.process.Returns (o.work i) (C.supply o k i) (o.coming i)

/-- A system in which the programs of a chain are at work, of whose output some has been shown
already. -/
structure Flows (shown : Bytes) (o : Outlook) (k : Kernel) : Prop where
  tasks : ∀ t ∈ k.tasks, (∃ i err, C.Works o k i err t) ∨ t.Corpse
  pids : (k.tasks.map Task.pid).Nodup
  seats : ∀ t ∈ k.tasks, ∀ u ∈ k.tasks, ∀ i err err', C.Mans i err t → C.Mans i err' u →
    t.pid = u.pid
  reading : ∀ i, .reader (C.base + i) ∉ k.held
  /-- A pipe that nobody writes to any more has got everything that its reader is going to read. -/
  dry : ∀ i, i + 1 < C.length → ¬ C.Manned k i → .writer (C.base + i) ∉ k.held →
    C.Manned k (i + 1) → o.coming i .out = []
  done : ∀ i, i + 1 = C.length → ¬ C.Manned k i → ∀ c, o.coming i c = []
  port : k.Takes C.port.handle
  landed : ∃ bytes, k.Landed C.port bytes ∧ o.arrived = shown ++ bytes

/-- How many turns all programs may still need. -/
def total (o : Outlook) : Nat := ∑ i ∈ Finset.range C.length, o.work i

/-- How far a system may have come. Stages of which the shell writes the output itself may be its
own. -/
structure Evolves (own : Nat → Prop) (o : Outlook) (k : Kernel) (o' : Outlook)
    (k' : Kernel) : Prop where
  manned : ∀ t ∈ k'.tasks, ∀ i err, C.Mans i err t → ∃ u ∈ k.tasks, u.pid = t.pid ∧ C.Mans i err u
  idle : ∀ i, ¬ C.Manned k i → ¬ own i → o'.coming i = o.coming i
  lands : ∃ more : Account, o'.arrived = o.arrived ++ more.taken C.merges ∧
    ∀ i, i + 1 = C.length → ∀ c, o.coming i c = more.on c ++ o'.coming i c
  work : C.total o' ≤ C.total o

variable {C}

namespace Evolves

variable {own own' : Nat → Prop} {o o' o'' : Outlook} {k k' k'' : Kernel}

theorem was_manned (h : C.Evolves own o k o' k') {i : Nat} (hi : C.Manned k' i) : C.Manned k i := by
  obtain ⟨t, ht, err, hm⟩ := hi
  obtain ⟨u, hu, -, hmu⟩ := h.manned t ht i err hm
  exact ⟨u, hu, err, hmu⟩

theorem refl (o : Outlook) (k : Kernel) : C.Evolves own o k o k where
  manned t ht _ _ hm := ⟨t, ht, rfl, hm⟩
  idle _ _ _ := rfl
  lands := ⟨[], by simp, fun _ _ _ => rfl⟩
  work := Nat.le_refl _

theorem trans (h : C.Evolves own o k o' k') (g : C.Evolves own o' k' o'' k'') :
    C.Evolves own o k o'' k'' where
  manned t ht i err hm := by
    obtain ⟨u, hu, hpid, hmu⟩ := g.manned t ht i err hm
    obtain ⟨v, hv, hpid', hmv⟩ := h.manned u hu i err hmu
    exact ⟨v, hv, hpid'.trans hpid, hmv⟩
  idle i hi hown := (g.idle i (fun hm => hi (h.was_manned hm)) hown).trans (h.idle i hi hown)
  lands := by
    obtain ⟨more, harrived, hcoming⟩ := h.lands
    obtain ⟨more', harrived', hcoming'⟩ := g.lands
    refine ⟨more ++ more', ?_, fun i hi c => ?_⟩
    · rw [harrived', harrived, Account.taken_append, List.append_assoc]
    · rw [hcoming i hi, hcoming' i hi, Account.on_append, List.append_assoc]
  work := Nat.le_trans g.work h.work

theorem mono (hown : ∀ i, own i → own' i) (h : C.Evolves own o k o' k') :
    C.Evolves own' o k o' k' :=
  ⟨h.manned, fun i hi hn => h.idle i hi fun ho => hn (hown i ho), h.lands, h.work⟩

end Evolves

theorem manned_congr {k k' : Kernel} (h : k'.tasks = k.tasks) (i : Nat) :
    C.Manned k' i ↔ C.Manned k i := by
  rw [Manned, Manned, h]

theorem input_eq_reader {i j : Nat} : C.input i = .reader (C.base + j) ↔ i = j + 1 := by
  cases i <;> simp [input]

theorem input_ne_writer (i n : Nat) : C.input i ≠ .writer n := by
  cases i <;> simp [input]

namespace Mans

variable {i : Nat} {err : Handle} {t : Task}

/-- A task that goes on with something else runs the program of its stage still. -/
theorem process (h : C.Mans i err t) (process : Process) : C.Mans i err { t with process } :=
  ⟨h.descriptors, h.pid, h.parent, h.ignored, h.caught, h.pending, h.wakeAt, h.stopped, h.ended⟩

/-- A task runs the program of one stage only. -/
theorem unique {j : Nat} {err' : Handle} (h : C.Mans i err t) (h' : C.Mans j err' t) :
    i = j ∧ err = err' := by
  have heq := h.descriptors.symm.trans h'.descriptors
  simp only [List.cons.injEq, Prod.mk.injEq, true_and, and_true] at heq
  obtain ⟨hinput, -, rfl⟩ := heq
  cases i <;> cases j <;> simp_all [input]

theorem handle_input (h : C.Mans i err t) : t.handle? 0 = some (C.input i) := by
  simp [Task.handle?, h.descriptors]

theorem handle_out (h : C.Mans i err t) : t.handle? Channel.out.descriptor = some (C.output i) := by
  simp [Task.handle?, h.descriptors, Channel.descriptor, List.lookup_cons]

theorem handle_err (h : C.Mans i err t) : t.handle? Channel.err.descriptor = some err := by
  simp [Task.handle?, h.descriptors, Channel.descriptor, List.lookup_cons]

theorem handles (h : C.Mans i err t) : t.handles = [C.input i, C.output i, err] := by
  simp [Task.handles, h.descriptors]

end Mans

/-- A task that has ended runs no program. -/
theorem not_mans_of_corpse {i : Nat} {err : Handle} {t : Task} (hc : t.Corpse) :
    ¬ C.Mans i err t := by
  intro h
  have hended := hc.ended
  simp [h.ended] at hended

namespace Flows

variable {shown : Bytes} {o : Outlook} {k k' : Kernel}

/-- A task that runs the program of a stage is at work. -/
theorem works (h : C.Flows shown o k) {t : Task} (ht : t ∈ k.tasks) {i : Nat} {err : Handle}
    (hm : C.Mans i err t) : C.Works o k i err t := by
  obtain ⟨j, err', hw⟩ | hc := h.tasks t ht
  · obtain ⟨rfl, rfl⟩ := hm.unique hw.mans
    exact hw
  · exact absurd hm (not_mans_of_corpse hc)

theorem output_ne_reader (h : C.Flows shown o k) (i n : Nat) : C.output i ≠ .reader n := by
  unfold output
  split
  · simp
  · exact h.port.ne_reader n

theorem output_eq_writer (h : C.Flows shown o k) {i j : Nat} :
    C.output i = .writer (C.base + j) ↔ i = j ∧ i + 1 < C.length := by
  unfold output
  split
  · next hi => simp [hi]
  · next hi => exact iff_of_false (h.port.ne_writer _) fun hj => hi hj.2

/-- The reading end of a pipe is held by the program of the next stage. -/
theorem isHeld_reader (h : C.Flows shown o k) (i : Nat) :
    k.isHeld (.reader (C.base + i)) = true ↔ C.Manned k (i + 1) := by
  rw [Kernel.isHeld_iff]
  constructor
  · rintro (hheld | ⟨t, ht, hmem⟩)
    · exact absurd hheld (h.reading i)
    · obtain ⟨j, err, hw⟩ | hc := h.tasks t ht
      · rw [hw.mans.handles] at hmem
        simp only [List.mem_cons, List.not_mem_nil, or_false] at hmem
        obtain hinput | houtput | herr := hmem
        · obtain rfl := input_eq_reader.mp hinput.symm
          exact ⟨t, ht, err, hw.mans⟩
        · exact absurd houtput.symm (h.output_ne_reader j _)
        · exact absurd herr.symm (hw.takes.ne_reader _)
      · simp [Task.handles, hc.descriptors] at hmem
  · rintro ⟨t, ht, err, hm⟩
    exact .inr ⟨t, ht, by simp [hm.handles, input]⟩

/-- The writing end of a pipe is held by the shell or by the program of the stage before it. -/
theorem isHeld_writer (h : C.Flows shown o k) {i : Nat} (hi : i + 1 < C.length) :
    k.isHeld (.writer (C.base + i)) = true ↔ .writer (C.base + i) ∈ k.held ∨ C.Manned k i := by
  rw [Kernel.isHeld_iff]
  constructor
  · rintro (hheld | ⟨t, ht, hmem⟩)
    · exact .inl hheld
    · obtain ⟨j, err, hw⟩ | hc := h.tasks t ht
      · rw [hw.mans.handles] at hmem
        simp only [List.mem_cons, List.not_mem_nil, or_false] at hmem
        obtain hinput | houtput | herr := hmem
        · exact absurd hinput.symm (input_ne_writer j _)
        · obtain ⟨rfl, -⟩ := h.output_eq_writer.mp houtput.symm
          exact .inr ⟨t, ht, err, hw.mans⟩
        · exact absurd herr.symm (hw.takes.ne_writer _)
      · simp [Task.handles, hc.descriptors] at hmem
  · rintro (hheld | ⟨t, ht, err, hm⟩)
    · exact .inl hheld
    · exact .inr ⟨t, ht, by simp [hm.handles, output, hi]⟩

end Flows

end Chain

end CommandShell
