import CommandShell.Proofs.Builtin.Frame

/-!
# Builtins in sessions that are mapped to others

What a change to sessions leaves of them that builtins look at decides what the builtins do. When it
commutes with all that they do to a session, a builtin does the same for a host that is mapped to
another one.

## Main statements

- `Builtin.runFor_map`: a builtin for a host that is mapped to another one.
-/

namespace CommandShell.Builtin

/-- The reply of a builtin in a session that is mapped to another one. -/
def Reply.map (g : Session → Session) (r : Reply) : Reply := { r with session := g r.session }

/-- A change that makes no difference to what builtins do in sessions of some kind, which they do
not leave. -/
structure Unseen (capture : Capture) (apt : Session → Prop) (g : Session → Session) : Prop where
  enduring : Enduring capture apt
  settings : ∀ s, (g s).settings = s.settings
  client : ∀ s, (g s).client = s.client
  messages : ∀ s, (g s).messages = s.messages
  ask : ∀ s messages, { g s with messages } = g { s with messages }
  capture : ∀ line s, apt s → capture line (g s) = ((capture line s).1, g (capture line s).2)
  exit : ∀ s args, apt s → runExit (g s) args = (runExit s args).map g
  echo : ∀ s args, apt s → runEcho (g s) args = (runEcho s args).map g
  pwd : ∀ s, apt s → runPwd (g s) = (runPwd s).map g
  cd : ∀ s args, apt s → runCd (g s) args = (runCd s args).map g
  type : ∀ s args, apt s → runType (g s) args = (runType s args).map g
  history : ∀ s args, apt s → runHistory (g s) args = (runHistory s args).map g
  log : ∀ s args, apt s → runLog (g s) args = (runLog s args).map g
  config : ∀ s file, apt s → s.settings = some file →
    Settings.get (g s).world file = Settings.get s.world file
  changeSetting : ∀ s file key value, apt s → s.settings = some file →
    Builtin.changeSetting (g s) file key value = (Builtin.changeSetting s file key value).map g

theorem enduring_true (capture : Capture) : Enduring capture fun _ => True :=
  ⟨fun _ _ _ _ => trivial, fun _ _ _ _ _ => trivial, fun _ _ _ => trivial, fun _ _ _ => trivial⟩

theorem unseen_id (capture : Capture) : Unseen capture (fun _ => True) id where
  enduring := enduring_true capture
  settings _ := rfl
  client _ := rfl
  messages _ := rfl
  ask _ _ := rfl
  capture _ _ _ := rfl
  exit _ _ _ := rfl
  echo _ _ _ := rfl
  pwd _ _ := rfl
  cd _ _ _ := rfl
  type _ _ _ := rfl
  history _ _ _ := rfl
  log _ _ _ := rfl
  config _ _ _ _ := rfl
  changeSetting _ _ _ _ _ _ := rfl

variable {σ : Type}

/-- A host that is mapped to another one, with its session. -/
structure Host.Maps (h : Host σ) (g : Session → Session) (f : σ → σ) : Prop where
  session : ∀ x, h.session (f x) = g (h.session x)
  setSession : ∀ s x, h.setSession (g s) (f x) = f (h.setSession s x)
  write : ∀ channel text x, h.write channel text (f x) = f (h.write channel text x)
  encodes : ∀ channel x, h.encodes channel (f x) = h.encodes channel x

namespace Host.Maps

variable {h : Host σ} {g : Session → Session} {f : σ → σ} {capture : Capture}

theorem take (hf : h.Maps g f) (reply : Reply) (x : σ) :
    h.take (reply.map g) (f x) = ((h.take reply x).1, f (h.take reply x).2) := by
  have hwrites (writes : List Emission) (y : σ) :
      writes.foldl (fun x w => h.write w.1 w.2 x) (f y) =
        f (writes.foldl (fun x w => h.write w.1 w.2 x) y) := by
    induction writes generalizing y with
    | nil => rfl
    | cons w rest ih =>
      simp only [List.foldl_cons, hf.write]
      exact ih _
  unfold Host.take Reply.map
  rw [hf.setSession, hwrites]

theorem writeUnits (hf : h.Maps g f) (channel : Channel) (units : CodeUnits) (x : σ) :
    h.writeUnits channel units (f x) = (h.writeUnits channel units x).map f := by
  unfold Host.writeUnits
  rw [hf.encodes, hf.write]
  split <;> rfl

theorem writeLines (hf : h.Maps g f) (channel : Channel) (lines : List CodeUnits) (x : σ) :
    h.writeLines channel lines (f x) =
      ((h.writeLines channel lines x).1, f (h.writeLines channel lines x).2) := by
  induction lines generalizing x with
  | nil => rfl
  | cons line rest ih =>
    unfold Host.writeLines
    rw [hf.writeUnits]
    rcases h.writeUnits channel line x with _ | y
    · rfl
    · exact ih y

section Apt

variable {apt : Session → Prop} (hf : h.Maps g f) (hg : Unseen capture apt g)
  (args : List String) {x : σ} (hx : apt (h.session x))
include hf hg hx

theorem config : runConfig h args (f x) = ((runConfig h args x).1, f (runConfig h args x).2) := by
  unfold runConfig
  dsimp only
  rw [hf.session, hg.settings, hg.client]
  split
  · exact hf.take (failure (h.session x) _) x
  · next file hfile =>
    rw [hg.config _ file hx hfile]
    exact hf.writeLines .out _ x
  · split
    · exact hf.take (failure (h.session x) _) x
    · exact hf.take (success (h.session x) _) x
  · next file key value hfile =>
    rw [hg.changeSetting _ file key value hx hfile]
    exact hf.take _ x
  · exact hf.take (failure (h.session x) _) x

theorem ai (hh : h.Upkeeps) :
    runAi h capture args (f x) = ((runAi h capture args x).1, f (runAi h capture args x).2) := by
  unfold runAi
  dsimp only
  rw [hf.session, hg.client]
  split
  · exact congrArg (Prod.mk _) (hf.write _ _ x)
  · next client _ =>
    split
    · exact congrArg (Prod.mk _) (hf.write _ _ x)
    · have hask (message : String) (x : σ) : (h.partner client capture).ask message (f x) =
          (((h.partner client capture).ask message x).1,
            f ((h.partner client capture).ask message x).2) := by
        unfold Host.partner
        dsimp only
        rw [hf.session, hg.messages, hg.ask, hf.setSession]
      have hrun (line : Json) (x : σ) (hx : apt (h.session x)) :
          (h.partner client capture).run line (f x) =
          (((h.partner client capture).run line x).1,
            f ((h.partner client capture).run line x).2) := by
        unfold Host.partner
        dsimp only
        rw [hf.session, hg.capture _ _ hx]
        exact congrArg (Prod.mk _) (hf.setSession _ x)
      have htalk :=
        Chat.converse_map (P := fun y => apt (h.session y)) (fun message x _ => hask message x) hrun
        (fun units x => hf.writeUnits .out units x)
        (fun message x hx => by
          simpa only [Host.partner, hh.session_setSession] using hg.enduring.sends _ _ hx)
        (fun line x hx => by
          simpa only [Host.partner, hh.session_setSession] using hg.enduring.captured line _ hx)
        (fun units x y hw => hg.enduring.upkeep _ _ (hh.writeUnits hw))
      rw [htalk Chat.maxSteps _ hx]
      rcases Chat.converse (h.partner client capture) Chat.maxSteps (String.intercalate " " args) x
        with ⟨y, (_ | _ | fault) | _ | _⟩
      · rfl
      · rfl
      · dsimp only
        split
        · exact congrArg (Prod.mk _) (hf.write _ _ y)
        · rfl
      · exact congrArg (Prod.mk _) (hf.write _ _ y)
      · rfl

end Apt

end Host.Maps

/-- A builtin does the same for a host that is mapped to another one. -/
theorem runFor_map {h : Host σ} {g : Session → Session} {f : σ → σ} {capture : Capture}
    {apt : Session → Prop} (hf : h.Maps g f) (hh : h.Upkeeps) (hg : Unseen capture apt g)
    (command : Builtin) (args : List String) {x : σ} (hx : apt (h.session x)) :
      command.runFor h capture args (f x) =
      ((command.runFor h capture args x).1, f (command.runFor h capture args x).2) := by
  cases command <;> simp only [runFor, hf.session]
  case exit =>
    rw [hg.exit _ _ hx]
    exact hf.take _ x
  case echo =>
    rw [hg.echo _ _ hx]
    exact hf.take _ x
  case pwd =>
    rw [hg.pwd _ hx]
    exact hf.take _ x
  case cd =>
    rw [hg.cd _ _ hx]
    exact hf.take _ x
  case type =>
    rw [hg.type _ _ hx]
    exact hf.take _ x
  case history =>
    rw [hg.history _ _ hx]
    exact hf.take _ x
  case config => exact hf.config hg args hx
  case log =>
    rw [hg.log _ _ hx]
    exact hf.take _ x
  case ai => exact hf.ai hg args hx hh

end CommandShell.Builtin
