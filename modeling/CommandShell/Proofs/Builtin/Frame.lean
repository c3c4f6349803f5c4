import CommandShell.Proofs.Builtin.Reply
import CommandShell.Proofs.Scope.Upkeep

/-!
# Builtins within a frame

A relation between sessions that upkeep does not leave, and neither does another one that comes
after it, is a frame. A builtin stays within it if its reply does, or, if it asks a chat model, if
the lines that are run for the model do. Only the lines count that the model asks for.

## Main statements

- `Builtin.upkeep_runFor`: a builtin does for its host what it has replied, and upkeep.
- `Builtin.runFor_within`: a builtin stays within a frame.
- `Builtin.Enduring.runFor`: what endures all that a builtin can do by itself is there after every
  builtin.
-/

namespace CommandShell

namespace Session

/-- A relation between sessions that upkeep does not leave. -/
structure Frame (R : Session → Session → Prop) : Prop where
  upkeep : ∀ s s', s.Upkeep s' → R s s'
  trans : ∀ s s' s'', R s s' → R s' s'' → R s s''

theorem Frame.refl {R : Session → Session → Prop} (hR : Frame R) (s : Session) : R s s :=
  hR.upkeep s s (.refl s)

end Session

namespace Builtin

variable {σ : Type} {h : Host σ} {capture : Capture}

/-- A builtin that asks no chat model does for its host what it has replied, and upkeep. -/
theorem upkeep_runFor (hh : h.Upkeeps) {b : Builtin} (hb : b ≠ .ai) (args : List String) (x : σ) :
    (b.run capture (h.session x) args).session.Upkeep
    (h.session (b.runFor h capture args x).2) := by
  have hreply (reply : Reply) : keeper.take reply (h.session x, []) =
      (reply.ending, reply.session, reply.writes) := take_keeper reply _
  have hs : keeper.session (h.session x, []) = h.session x := rfl
  unfold run
  cases b with
  | ai => exact absurd rfl hb
  | config =>
    simp only [runFor, runConfig, hs]
    split
    · simpa only [hreply] using hh.take _ x
    · simpa only [writeLines_keeper] using hh.writeLines _ _ x
    · split <;> simpa only [hreply] using hh.take _ x
    · simpa only [hreply] using hh.take _ x
    · simpa only [hreply] using hh.take _ x
  | _ => simpa only [runFor, hs, hreply] using hh.take _ x

/-- A builtin stays within a frame if its reply does, or the lines do that are run for a chat
model. -/
theorem runFor_within {R : Session → Session → Prop} (hR : Session.Frame R) (hh : h.Upkeeps)
    (b : Builtin) (args : List String) (x : σ)
    (halone : b ≠ .ai → R (h.session x) (b.run capture (h.session x) args).session)
    (hsend : ∀ (s : Session) messages, R s { s with messages })
    (hlines : b = .ai → ∀ client line y, (h.session x).client = some client →
      Chat.Requests (h.partner client capture) Chat.maxSteps
        (String.intercalate " " args) x line y →
      R (h.session y) (capture line (h.session y)).2) :
    R (h.session x) (h.session (b.runFor h capture args x).2) := by
  by_cases hb : b = .ai
  · subst hb
    have hwritten {y : σ} (message : String) (hy : R (h.session x) (h.session y)) :
        R (h.session x) (h.session (h.write .err message y)) :=
          hR.trans _ _ _ hy (hR.upkeep _ _ (hh.write ..))
    unfold runFor runAi
    dsimp only
    split
    · exact hwritten _ (hR.refl _)
    · next client hclient =>
      split
      · exact hwritten _ (hR.refl _)
      · have htalk : R (h.session x)
            (h.session (Chat.converse (h.partner client capture) Chat.maxSteps
            (String.intercalate " " args) x).state) := by
          apply Chat.converse_requests (P := fun y => R (h.session x) (h.session y))
          · intro message y hy
            simp only [Host.partner, hh.session_setSession]
            exact hR.trans _ _ _ hy (hsend _ _)
          · intro units y z hw hy
            exact hR.trans _ _ _ hy (hR.upkeep _ _ (hh.writeUnits hw))
          · intro line y hrequest hy
            simp only [Host.partner, hh.session_setSession]
            exact hR.trans _ _ _ hy (hlines rfl client line y hclient hrequest)
          · exact hR.refl _
        split
        · exact htalk
        · exact hwritten _ htalk
        · split
          · exact hwritten _ htalk
          · exact htalk
        · exact htalk
  · exact hR.trans _ _ _ (halone hb) (hR.upkeep _ _ (upkeep_runFor hh hb args x))

/-- A property of sessions that endures what builtins do: upkeep, replies, messages and captured
lines. -/
structure Enduring (capture : Capture) (P : Session → Prop) : Prop where
  upkeep : ∀ s s', s.Upkeep s' → P s → P s'
  replied : ∀ (b : Builtin) s args, b ≠ .ai → P s → P (b.run capture s args).session
  sends : ∀ (s : Session) messages, P s → P { s with messages }
  captured : ∀ line s, P s → P (capture line s).2

namespace Enduring

variable {P : Session → Prop}

theorem frame (hP : Enduring capture P) : Session.Frame fun s s' => P s → P s' where
  upkeep := hP.upkeep
  trans _ _ _ h g := g ∘ h

theorem runFor (hP : Enduring capture P) (hh : h.Upkeeps) (b : Builtin) (args : List String) {x : σ}
    (hx : P (h.session x)) : P (h.session (b.runFor h capture args x).2) := by
  refine runFor_within hP.frame hh b args x ?_ hP.sends ?_ hx
  · intro hb
    exact hP.replied b _ args hb
  · intro _ client line y _ _
    exact hP.captured line _

end Enduring

end Builtin

end CommandShell
