import CommandShell.Proofs.Scope.Grip

/-!
# The couplers of a pipeline

The shell closes its copy of every coupler end, each exactly once, whatever the stages are and
however they end. It never uses an end that it has closed, and it holds none while it waits, so
every program sees the end of its input.

## Main statements

- `Pipeline.couplers_closed_once`: what happens to the coupler ends of a pipeline.
-/

namespace CommandShell.Pipeline

/-- Whichever builtins an interrupt stops: each end of a coupler is opened and closed once, and
handed on or wrapped only in between. Whenever the shell waits, all ends are closed and it holds
what it held before the couplers were made; at the end it holds what it held before the pipeline was
run. -/
theorem couplers_closed_once (depth : Nat) (s s' : Session) (stages : List Stage)
    (stops : Nat → Option Nat) {last : Stage} {wiring : Wiring}
    (hlast : stages.getLast? = some last)
    (hopen : openRedirections s last.redirections = (.ok wiring, s')) :
    (∀ e ∈ Ledger.couplerEnds (stages.length - 1),
      (run (Shell.capture depth) s stages stops).history.countP (Event.opens e) = 1 ∧
        (run (Shell.capture depth) s stages stops).history.countP (Event.closes e) = 1) ∧
      (∀ past event rest e, (run (Shell.capture depth) s stages stops).history = past ++
        event :: rest →
        (∃ i, event = .handed e i) ∨ event = .wrapped e → .opened e ∈ past ∧ .closed e ∉ past) ∧
      (∀ past held rest,
        (run (Shell.capture depth) s stages stops).history = past ++ .waiting held :: rest →
          (∀ e, .opened e ∈ past → .closed e ∈ past) ∧ held.Perm s'.world.held) ∧
      (run (Shell.capture depth) s stages stops).session.world.held.Perm s.world.held := by
  have hrun : run (Shell.capture depth) s stages stops =
      runWired (Shell.capture depth) s' stages wiring stops := by
    simp only [run, hlast, hopen]
  have hfiles : FilesHeld s.world.held (.ok wiring, s') := hopen ▸ filesHeld_openRedirections s _
  obtain ⟨hheld, l, hhistory, hstages, hl⟩ :=
    discharged_runWired (Shell.returnsHandles_capture depth) hfiles stages stops
  rw [← hrun] at hheld hhistory
  rw [← hhistory]
  have hnone : l.openEnds = [] :=
    List.eq_nil_iff_forall_not_mem.mpr fun e he => (hl.mem_openEnds e).mp he
  refine ⟨fun e he => ?_, fun past event rest e heq hevent => ?_, fun past held rest heq =>
    ⟨?_, ?_⟩, hheld⟩
  · have hlife : life e l.history = some .closed := by
      rw [hl.life_eq e, Ledger.stateOf, hnone, hstages]
      simp [he]
    exact ⟨countP_opens_of_life hlife, countP_closes_of_life hlife⟩
  · exact held_of_life_use (heq ▸ hl.life_eq e) hevent
  · exact fun e he => closed_of_life_waiting (heq ▸ hl.life_eq e) he
  · exact hl.waits held (by simp [heq])

/-- A builtin writes to a command that was not found: both ends are closed all the same. -/
theorem couplers_closed_once_echo_missing :
    let s : Session :=
      { cwd := Path.ofParts [], world := {}, machine := { load := fun _ _ _ => .error .notFound } }
    let missing : Stage :=
      { command := "nope", args := [], target := .program none, text := "nope" }
    let stages : List Stage :=
      [{ command := "echo", args := ["hi"], target := .builtin .echo, text := "echo hi" }, missing]
    stages.getLast? = some missing ∧
      openRedirections s missing.redirections = (.ok { outlets := .ofSession s }, s) ∧
      ∀ e ∈ Ledger.couplerEnds 1,
        (run (Shell.capture 0) s stages).history.countP (Event.opens e) = 1 ∧
          (run (Shell.capture 0) s stages).history.countP (Event.closes e) = 1 := by
  intro s missing stages
  have hlast : stages.getLast? = some missing := rfl
  have hopen : openRedirections s missing.redirections = (.ok { outlets := .ofSession s }, s) := rfl
  exact ⟨hlast, hopen, (couplers_closed_once 0 s s stages (fun _ => none) hlast hopen).1⟩

end CommandShell.Pipeline
