import CommandShell.Proofs.Builtin.Halts
import CommandShell.Proofs.Ledger.Ends
import CommandShell.Proofs.Scope.Pipeline

/-!
# How lines halt

A pipeline is halted by one of its builtins, or by a text that cannot be handed to a program. An
exit halts it only if it has a single stage, and a line that is run for a chat model is never halted
by one.

## Main statements

- `Pipeline.length_of_exit`: a pipeline that asks the shell to stop has one stage.
- `Shell.capture_ne_exit`: a line that is run for a chat model does not ask the shell to stop.
-/

namespace CommandShell

theorem Scope.full_any : Scope.any.Full := ⟨trivial, fun _ _ => trivial⟩

theorem Session.within_any (s : Session) : s.Within .any :=
  ⟨fun _ _ _ _ _ _ => trivial, trivial, fun _ => trivial, trivial,
    ⟨fun _ _ => trivial, fun _ => trivial⟩, fun _ _ => trivial,
    ⟨fun _ _ => trivial, fun _ _ => trivial, fun _ _ => trivial, fun _ _ => trivial,
      fun _ _ => trivial, fun _ _ => trivial⟩⟩

/-- A way to run lines by which nobody asks the shell to stop. -/
def Builtin.NeverExits (capture : Builtin.Capture) : Prop :=
  ∀ line s code, (capture line s).1 ≠ .error (.exit code)

namespace Pipeline

namespace Run

variable {σ : Scope} {r : Run} {capture : Builtin.Capture} {halt : Halt} {code : Int}

theorem halts_spawn (h : r.Within σ) {i : Nat} {stage : Stage}
    (hs : (r.spawn i stage).1 = some halt) :
    ∃ arguments f, halt = .fault f ∧ textFault? arguments r.session.environment = some f := by
  unfold spawn at hs
  split at hs
  · cases hs
  · cases hs
  · obtain ⟨hmade, -, -⟩ := h.makes_descriptorsFor i stage.redirections.merges
    unfold spawnProgram at hs
    extract_lets ends at hs
    generalize r.descriptorsFor i stage.redirections.merges = routed at hmade hs
    obtain ⟨r₁, descriptors, streams⟩ := routed
    have hhanded := hmade.trans (hmade.within.makes_handAll i ends)
    dsimp only at hhanded hs
    rw [hhanded.session.steady.environment] at hs
    split at hs
    · next f hf =>
      cases hs
      exact ⟨_, f, rfl, hf⟩
    · split at hs <;> cases hs

/-- Starting programs halts a run only if their texts cannot be handed to them. -/
theorem halts_spawnAll (h : r.Within σ) (hg : σ.grips) {indexed : List (Stage × Nat)}
    (hs : (spawnAll indexed r).1 = some halt) :
    ∃ arguments f, halt = .fault f ∧ textFault? arguments r.session.environment = some f := by
  induction indexed generalizing r with
  | nil => cases hs
  | cons stage rest ih =>
    have hfirst := h.makes_spawn hg stage.2 stage.1
    unfold spawnAll at hs
    split at hs
    · next hr =>
      rw [hr] at hfirst
      obtain ⟨arguments, f, hhalt, hf⟩ := ih hfirst.within hs
      exact ⟨arguments, f, hhalt, hfirst.session.steady.environment ▸ hf⟩
    · exact halts_spawn h hs

/-- A builtin ends as it does when it is run; before that the run has only got ready for it. -/
theorem ending_callBuiltin (h : r.Within σ) (hg : σ.grips) (i : Nat) (stage : Stage) (b : Builtin) :
    ∃ r', r.Makes σ r' ∧
      (r.callBuiltin capture i stage b).1 = (b.runFor (host i) capture stage.args r').1 := by
  have hwrap : r.Makes σ (if r.isLast i then r else r.wrapEnd i) := by
    split
    · exact .refl h
    · exact h.makes_wrapEnd hg i
  have hlog := hwrap.within.makes_log .debug ("builtin " ++ stage.command) none
  exact ⟨_, hwrap.trans (hlog.trans (hlog.within.makes_note (.called i))), rfl⟩

/-- An exit halts the builtins of a run only if there is one stage. -/
theorem length_of_exit {indexed : List (Stage × Nat)}
    (hs : (runBuiltins capture indexed r).1 = some (.exit code)) : r.stages.length = 1 := by
  induction indexed generalizing r with
  | nil => cases hs
  | cons stage rest ih =>
    unfold runBuiltins at hs
    split at hs
    · exact ih hs
    · next b _ =>
      have hkept := r.stages_runBuiltin capture stage.2 stage.1 b
      split at hs
      · next hr =>
        rw [hr] at hkept
        exact hkept ▸ ih hs
      · unfold runBuiltin at hs
        split at hs
        · cases hs
        · next hcall =>
          have hcount := stages_callBuiltin hcall
          split at hs <;> cases hs
          next hone => exact hcount ▸ hone
        · next hother hcall =>
          cases hs
          exact absurd rfl (hother code)

end Run

variable {capture : Builtin.Capture} {s : Session} {stages : List Stage} {code : Int}

theorem length_of_runWired_exit {wiring : Wiring} (hwiring : wiring.outlets.Within .any)
    (h : (runWired capture s stages wiring).ending = .error (.exit code)) : stages.length = 1 := by
  obtain ⟨hinit, -⟩ := Run.within_init (σ := .any) trivial s.within_any hwiring stages
  have hstages := Run.stages_spawnAll stages.zipIdx (Run.init s stages wiring)
  have hbuiltins (hb : (Run.runBuiltins capture stages.zipIdx (Run.spawnAll stages.zipIdx
      (Run.init s stages wiring)).2).1 = some (.exit code)) : stages.length = 1 :=
    (congrArg List.length hstages).symm.trans (Run.length_of_exit hb)
  unfold runWired at h
  extract_lets indexed at h
  split at h
  · next hr =>
    cases h
    have hhalted : (Run.spawnAll indexed (Run.init s stages wiring)).1 = some (.exit code) := by
      rw [hr]
    obtain ⟨arguments, f, hf, -⟩ := Run.halts_spawnAll hinit trivial hhalted
    cases hf
  · next hr =>
    rw [show Run.spawnAll stages.zipIdx (Run.init s stages wiring) = _ from hr] at hbuiltins
    split at h
    · cases h
    · cases h
    · next hb =>
      cases h
      exact hbuiltins (by rw [show Run.runBuiltins capture stages.zipIdx _ = _ from hb])

/-- A pipeline that asks the shell to stop has one stage. -/
theorem length_of_exit (h : (run capture s stages).ending = .error (.exit code)) :
    stages.length = 1 := by
  unfold run at h
  split at h
  · cases h
  · next last _ =>
    obtain ⟨-, hwiring⟩ := makes_openRedirections (σ := .any) trivial s.within_any last.redirections
    generalize openRedirections s last.redirections = opened at h hwiring
    split at h
    · exact length_of_runWired_exit (hwiring _ rfl) h
    · cases h
    · cases h

end Pipeline

/-- A line that is run for a chat model does not ask the shell to stop. -/
theorem Shell.capture_ne_exit (depth : Nat) : Builtin.NeverExits (capture depth) := by
  intro line s code h
  cases depth with
  | zero => cases h
  | succ depth =>
    unfold capture at h
    split at h
    · split at h
      · cases h
      · cases h
      · unfold captureStages at h
        dsimp only at h
        split at h
        · cases h
        · cases h
        · next hother _ =>
          cases h
          exact hother code rfl
    · cases h

end CommandShell
