import CommandShell.Proofs.Flow.Chain
import CommandShell.Proofs.Scope.Grip
import CommandShell.Proofs.Scope.Upkeep

/-!
# What a pipeline means

A pipeline means the composition of its stages: one stage after the other reads all that the one
before it has written. A program is started where the line found the session, whatever builtins
stand before it. A builtin reads nothing, and works in the state that the builtin before it has
left.

## Main statements

- `Pipeline.Composes`: what the stages of a pipeline come to, from left to right.
- `Pipeline.exists_composes`, `Pipeline.Composes.unique`: they come to something, and to one thing
  only.
- `Pipeline.Answers`: what the builtins of a pipeline reply, one after the other.
-/

namespace CommandShell

open Builtin (Emission)

/-- The bytes of texts that are written on channels. -/
def Account.texts (writes : List Emission) : Account := writes.flatMap fun e =>
  Account.of e.1 (Utf8.encode e.2)

@[simp] theorem Account.texts_nil : Account.texts [] = [] := rfl

theorem Account.texts_cons (e : Emission) (writes : List Emission) :
    Account.texts (e :: writes) = Account.of e.1 (Utf8.encode e.2) ++ Account.texts writes := rfl

namespace Pipeline

/-- What the shell says of a command that was not found. -/
def missingText (stage : Stage) : String := stage.command ++ ": command not found\n"

/-- What the shell says of a program that could not be started. -/
def refusedText (stage : Stage) (e : StartError) : String :=
  stage.command ++ ": " ++ e.error.text ++ "\n"

/-- What a stage writes on its channels when it has read some input; a builtin writes these texts.
The number bounds how many turns a program takes. -/
inductive Produces (s : Session) (stage : Stage) (writes : List Emission) (input : Bytes) :
    Nat → (Channel → Bytes) → Prop where
  | builtin {b : Builtin} (ht : stage.target = .builtin b) :
    Produces s stage writes input 0 (Account.texts writes).on
  | missing (ht : stage.target = .program none) :
    Produces s stage writes input 0 (Account.texts [(.err, missingText stage)]).on
  | refused {path : Path} {e : StartError} (ht : stage.target = .program (some path))
    (hs : start s (stage.command :: stage.args) path = .error e) :
    Produces s stage writes input 0 (Account.texts [(.err, refusedText stage e)]).on
  | program {path : Path} {process : Process} {n : Nat} {output : Channel → Bytes}
    (ht : stage.target = .program (some path)) (hs : start s (stage.command :: stage.args) path =
      .ok process)
    (hr : process.Returns n input output) : Produces s stage writes input n output

/-- What stages come to when the first one reads some input and every other one what the stage
before it has written for its output: what the last one writes on its channels. The builtins write
what they reply. -/
inductive Composes (s : Session) (replies : Nat → List Emission) :
    Bytes → List (Stage × Nat) → Nat → (Channel → Bytes) → Prop where
  | last {input : Bytes} {stage : Stage} {i n : Nat} {output : Channel → Bytes}
    (h : Produces s stage (replies i) input n output) :
      Composes s replies input [(stage, i)] n output
  | next {input : Bytes} {stage : Stage} {i n m : Nat} {output final : Channel → Bytes}
      {x : Stage × Nat}
    {rest : List (Stage × Nat)} (h : Produces s stage (replies i) input n output)
    (hrest : Composes s replies (output .out) (x :: rest) m final) :
    Composes s replies input ((stage, i) :: x :: rest) (n + m) final

section Existence

variable {s : Session} {stage : Stage} {writes : List Emission} {input : Bytes}

/-- The programs that a functional machine starts are functions of their input. -/
theorem isFunction_start (hs : s.machine.Functional) {arguments : List String} {path : Path}
    {process : Process} (hp : start s arguments path = .ok process) : process.IsFunction := by
  let σ : Scope := { Scope.still with admits := Process.IsFunction }
  have hwithin : s.Within σ :=
    ⟨fun files place text program hl launch => hs files place text program hl launch, trivial,
      fun _ => trivial, trivial, ⟨fun _ _ => trivial, fun _ => trivial⟩, fun _ _ => trivial,
      ⟨fun _ _ => trivial, fun _ _ => trivial, fun _ _ => trivial, fun _ _ => trivial,
        fun _ _ => trivial, fun _ _ => trivial⟩⟩
  exact Run.Within.admits_start hwithin hp

theorem exists_produces (hs : s.machine.Functional) (stage : Stage) (writes : List Emission)
    (input : Bytes) : ∃ n output, Produces s stage writes input n output := by
  rcases ht : stage.target with b | _ | path
  · exact ⟨_, _, .builtin ht⟩
  · exact ⟨_, _, .missing ht⟩
  · cases hstart : start s (stage.command :: stage.args) path with
    | error e => exact ⟨_, _, .refused ht hstart⟩
    | ok process =>
      obtain ⟨n, output, hr⟩ := (isFunction_start hs hstart).returns input
      exact ⟨n, output, .program ht hstart hr⟩

/-- If all programs are functions of their input, stages come to something. -/
theorem exists_composes (hs : s.machine.Functional) (replies : Nat → List Emission) (input : Bytes)
    (x : Stage × Nat) (rest : List (Stage × Nat)) :
      ∃ n final, Composes s replies input (x :: rest) n final := by
  induction rest generalizing input x with
  | nil =>
    obtain ⟨n, output, h⟩ := exists_produces hs x.1 (replies x.2) input
    exact ⟨n, output, .last h⟩
  | cons y rest ih =>
    obtain ⟨n, output, h⟩ := exists_produces hs x.1 (replies x.2) input
    obtain ⟨m, final, hrest⟩ := ih (output .out) y
    exact ⟨n + m, final, .next h hrest⟩

theorem Produces.unique {n m : Nat} {output output' : Channel → Bytes}
    (h : Produces s stage writes input n output) (h' : Produces s stage writes input m output') :
      output = output' := by
  cases h <;> cases h' <;> simp_all
  next hr _ _ hr' => exact hr.unique hr'

/-- Stages come to one thing only. -/
theorem Composes.unique {replies : Nat → List Emission} {indexed : List (Stage × Nat)} {n m : Nat}
    {final final' : Channel → Bytes} (h : Composes s replies input indexed n final)
    (h' : Composes s replies input indexed m final') : final = final' := by
  induction h generalizing m with
  | last h =>
    cases h' with
    | last h' => exact h.unique h'
  | next h _ ih =>
    cases h' with
    | next h' hrest' =>
      obtain rfl := h.unique h'
      exact ih hrest'

/-- A builtin writes what it replies. -/
theorem Produces.of_isBuiltin {n : Nat} {output : Channel → Bytes}
    (h : Produces s stage writes input n output) (hb : stage.isBuiltin = true) :
      output = (Account.texts writes).on := by
  cases h with
  | builtin => rfl
  | missing ht | refused ht | program ht => simp [Stage.isBuiltin, ht] at hb

/-- Nothing is written for the output of a command that does not run. -/
theorem Produces.silent {n : Nat} {output : Channel → Bytes}
    (h : Produces s stage writes input n output) (hb : stage.isBuiltin = false)
    (hp : ∀ path process, stage.target = .program (some path) →
      start s (stage.command :: stage.args) path ≠ .ok process) : output .out = [] := by
  cases h with
  | builtin ht => simp [Stage.isBuiltin, ht] at hb
  | missing | refused => simp [Account.texts_cons, Account.on_of]
  | program ht hs => exact absurd hs (hp _ _ ht)

end Existence

section Stages

/-- What the stage at a position reads when those before it have written so much. -/
def inputOf (input : Bytes) (output : Nat → Channel → Bytes) : Nat → Bytes
  | 0 => input
  | i + 1 => output i .out

/-- What every stage writes on its channels, and how many turns it takes at most. -/
structure Yields (s : Session) (replies : Nat → List Emission) (stages : List Stage)
    (output : Nat → Channel → Bytes) (work : Nat → Nat) : Prop where
  produces : ∀ i stage, stages[i]? = some stage →
    Produces s stage (replies i) (inputOf [] output i) (work i) (output i)

theorem Composes.exists_outputs {s : Session} {replies : Nat → List Emission} {input : Bytes}
    {first : Nat} {stages : List Stage} {n : Nat} {final : Channel → Bytes}
    (h : Composes s replies input (stages.zipIdx first) n final) :
    ∃ (output : Nat → Channel → Bytes) (work : Nat → Nat),
      (∀ i stage, stages[i]? = some stage →
        Produces s stage (replies (first + i)) (inputOf input output i) (work i) (output i)) ∧
      output (stages.length - 1) = final ∧ ∑ i ∈ Finset.range stages.length, work i = n := by
  induction stages generalizing input first n with
  | nil => cases h
  | cons stage rest ih =>
    cases rest with
    | nil =>
      cases h with
      | last hlast =>
        refine ⟨fun _ => final, fun _ => n, fun i stage' hi => ?_, rfl, by simp⟩
        obtain _ | i := i
        · obtain rfl : stage = stage' := by simpa using hi
          exact hlast
        · simp at hi
    | cons next rest =>
      cases h with
      | @next _ _ _ n₁ m output₁ _ _ _ hfirst hrest =>
        have hlater : Composes s replies (output₁ .out) ((next :: rest).zipIdx (first + 1)) m
            final := hrest
        obtain ⟨output, work, hproduces, hfinal, hwork⟩ := ih hlater
        refine ⟨fun i => i.casesOn output₁ output, fun i => i.casesOn n₁ work,
          fun i stage' hi => ?_, ?_, ?_⟩
        · obtain _ | i := i
          · obtain rfl : stage = stage' := by simpa using hi
            exact hfirst
          · have hnext := hproduces i stage' (by simpa using hi)
            rw [Nat.add_assoc, Nat.add_comm 1] at hnext
            obtain _ | i := i <;> exact hnext
        · simpa using hfinal
        · rw [List.length_cons, Finset.sum_range_succ', ← hwork]
          exact Nat.add_comm ..

/-- Stages come to what the last one writes when all of them have written their output. -/
theorem Composes.yields {s : Session} {replies : Nat → List Emission}
    {stages : List Stage} {n : Nat} {final : Channel → Bytes}
    (h : Composes s replies [] stages.zipIdx n final) :
    ∃ output work, Yields s replies stages output work ∧ output (stages.length - 1) = final ∧
      ∑ i ∈ Finset.range stages.length, work i = n := by
  obtain ⟨output, work, hproduces, hfinal, hwork⟩ := h.exists_outputs
  exact ⟨output, work, ⟨fun i stage hi => by simpa using hproduces i stage hi⟩, hfinal, hwork⟩

end Stages

end Pipeline

namespace Session

/-- A session in which a pipeline has gone on beside its builtins: files have changed only where
they were open, and the log has got records about the pipeline. -/
structure Beside (s s' : Session) : Prop where
  upkeep : s.Upkeep s'
  interrupts : s'.interrupts = s.interrupts
  still : s.world.toKernel.Still s'.world.toKernel
  log : ∃ records : List Log.Entry, (∀ e ∈ records, e.source = "pipeline") ∧
    s'.log = records.foldl (fun log e => (log.record e).1) s.log

namespace Beside

variable {s s' s'' : Session}

theorem refl (s : Session) : s.Beside s := ⟨.refl s, rfl, .refl _, [], by simp, rfl⟩

theorem trans (h : s.Beside s') (g : s'.Beside s'') : s.Beside s'' := by
  obtain ⟨records, hsource, hlog⟩ := h.log
  obtain ⟨records', hsource', hlog'⟩ := g.log
  refine ⟨h.upkeep.trans g.upkeep, g.interrupts.trans h.interrupts, h.still.trans g.still,
    records ++ records', fun e he => ?_, ?_⟩
  · exact (List.mem_append.mp he).elim (hsource e) (hsource' e)
  · rw [hlog', hlog, List.foldl_append]

theorem direct (h : s.Beside s') : s'.direct = s.direct := by
  obtain ⟨_, _, _, _, heq⟩ := h.upkeep
  rw [heq]

theorem environment (h : s.Beside s') : s'.environment = s.environment := by
  obtain ⟨_, _, _, _, heq⟩ := h.upkeep
  rw [heq]

theorem onKernel (s : Session) {f : Kernel → Kernel}
    (h : s.world.toKernel.Still (f s.world.toKernel)) :
    s.Beside (s.onKernel f) := ⟨.onKernel s f, rfl, h, [], by simp, rfl⟩

theorem shown (s : Session) (screen : Screen) : s.Beside { s with screen } :=
  ⟨.shown s screen, rfl, .refl _, [], by simp, rfl⟩

theorem absorb (s : Session) : s.Beside s.absorb := by
  refine ⟨.absorb s, ?_, ?_, [], by simp, ?_⟩ <;> unfold Session.absorb <;> split
  · rfl
  · rfl
  · exact .of_eq rfl rfl
  · exact .refl _
  · rfl
  · rfl

theorem note (s : Session) (level : Log.Level) (message : String) (pid : Option Nat) :
    s.Beside (s.note level "pipeline" message pid) := by
  let e : Log.Entry := { level, message, source := "pipeline", pid := pid.map Int.ofNat }
  have hkept : (s.note level "pipeline" message pid).world = s.world ∧
      (s.note level "pipeline" message pid).log = (s.log.record e).1 ∧
      (s.note level "pipeline" message pid).interrupts = s.interrupts := by
    unfold Session.note
    dsimp only
    split <;> exact ⟨rfl, rfl, rfl⟩
  exact ⟨.note s .., hkept.2.2, hkept.1 ▸ .refl _, [e], by simp [e], hkept.2.1⟩

end Beside

end Session

namespace Pipeline

/-- What the builtins of stages reply, one after the other, each in the state that the builtin
before it has left. -/
inductive Answers (capture : Builtin.Capture) (replies : Nat → List Emission) :
    Session → List (Stage × Nat) → Prop where
  | nil {s : Session} : Answers capture replies s []
  | program {s : Session} {stage : Stage} {i : Nat} {path : Option Path} {rest : List (Stage × Nat)}
    (ht : stage.target = .program path) (hrest : Answers capture replies s rest) :
    Answers capture replies s ((stage, i) :: rest)
  | builtin {s s' : Session} {stage : Stage} {i : Nat} {b : Builtin} {rest : List (Stage × Nat)}
    (ht : stage.target = .builtin b) (hs : s.Beside s')
      (hw : (b.run capture s' stage.args).writes = replies i)
    (hrest : Answers capture replies (b.run capture s' stage.args).session rest) :
    Answers capture replies s ((stage, i) :: rest)

end Pipeline

end CommandShell
