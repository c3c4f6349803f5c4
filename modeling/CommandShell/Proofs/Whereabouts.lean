import CommandShell.Proofs.Builtin.Footprint
import CommandShell.Proofs.Calls
import CommandShell.Proofs.Help.Answer
import CommandShell.Proofs.HistoryFile

/-!
# Where a session is

What the names in a session lead to goes by its variables, by where its settings are kept, and by
two working directories, its own and that of its process. Lines change nothing of this but the
working directory of the session, and that only by `cd`. So a property of where a session is holds
after all lines if `cd` keeps it.

## Main statements

- `Session.Whereabouts.enduring`: whatever a builtin does keeps such a property, lines for a chat
  model included.
- `Session.Whereabouts.executeAll`: so do the lines of a session.
-/

namespace CommandShell

namespace Session

/-- A property of where a session is that `cd` keeps. -/
structure Whereabouts (P : Session → Prop) : Prop where
  of_eq : ∀ s s', s'.environment = s.environment → s'.settings = s.settings → s'.cwd = s.cwd →
    s'.world.directory = s.world.directory → P s → P s'
  cd : ∀ s args, P s → P (Builtin.runCd s args).session

namespace Whereabouts

variable {P : Session → Prop} (hP : Whereabouts P) {s : Session}
include hP

/-- A builtin that asks no chat model moves a session only if it is `cd`. -/
theorem run (capture : Builtin.Capture) {b : Builtin} (hb : b ≠ .ai) (args : List String)
    (hs : P s) : P (b.run capture s args).session := by
  by_cases hcd : b = .cd
  · subst hcd
    have hreply : Builtin.cd.run capture s args = Builtin.runCd s args := Builtin.run_eq_of_take rfl
    rw [hreply]
    exact hP.cd s args hs
  · obtain ⟨cwd, history, log, screen, files, hsession, hcwd, -⟩ :=
      Builtin.session_run capture hb s args
    rw [hsession]
    exact hP.of_eq s _ rfl rfl (hcwd hcd) rfl hs

theorem frame : Frame fun s s' => P s → P s' where
  upkeep s s' hkept := by
    obtain ⟨_, _, _, _, rfl⟩ := hkept
    exact hP.of_eq s _ rfl rfl rfl rfl
  trans _ _ _ h g := g ∘ h

/-- Whatever a builtin does keeps a property of where the session is. -/
theorem enduring (depth : Nat) : Builtin.Enduring (Shell.capture depth) P where
  upkeep := hP.frame.upkeep
  replied _ _ args hb := hP.run _ hb args
  sends s _ := hP.of_eq s _ rfl rfl rfl rfl
  captured line s := Shell.within_capture hP.frame (fun s _ => hP.of_eq s _ rfl rfl rfl rfl)
    (fun s _ => hP.of_eq s _ rfl rfl rfl rfl) depth line s fun _ args _ hb capture _ =>
      hP.run capture hb args

theorem execute (line : String) (hs : P s) : P (Shell.execute s line).2 := by
  by_cases hblank : Text.strip line = ""
  · simpa only [Shell.execute, if_pos hblank] using hs
  · have hrecorded : P (Shell.recorded s (Text.strip line)) := hP.of_eq s _ rfl rfl rfl rfl hs
    have hran : P (Shell.runLine (Shell.recorded s (Text.strip line)) (Text.strip line)).2 := by
      unfold Shell.runLine
      split
      · exact hP.of_eq (Shell.recorded s (Text.strip line)) _ rfl rfl rfl rfl hrecorded
      · exact hrecorded
      · exact Shell.within_run hP.frame (fun s _ => hP.of_eq s _ rfl rfl rfl rfl)
          (fun s _ => hP.of_eq s _ rfl rfl rfl rfl) Shell.maxDepth _ _
          (fun _ args _ hb capture _ => hP.run capture hb args) hrecorded
    rw [Shell.execute_eq_ite _ hblank]
    split
    · exact hP.of_eq (Shell.recorded s (Text.strip line)) _ rfl rfl rfl rfl hrecorded
    · generalize Shell.runLine (Shell.recorded s (Text.strip line)) (Text.strip line) = ran at hran
      obtain ⟨(_ | _ | _) | _, s'⟩ := ran <;> exact hP.of_eq s' _ rfl rfl rfl rfl hran

/-- The lines of a session keep a property of where it is. -/
theorem executeAll (lines : List String) (hs : P s) : P (Shell.executeAll s lines) := by
  induction lines generalizing s with
  | nil => exact hs
  | cons line rest ih =>
    rw [Shell.executeAll_cons]
    exact ih (hP.execute line hs)

end Whereabouts

end Session

end CommandShell
