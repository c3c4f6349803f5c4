import CommandShell.Proofs.Backdrop.Session
import CommandShell.Proofs.Unseen

/-!
# Pipelines before another backdrop

What a pipeline shows on the screen does not depend on what stands there. Every operation on a sink
commutes with putting the session before another backdrop, and so the whole pipeline does.

## Main statements

- `Pipeline.Outlets.act_against`: an operation on an outlet before another backdrop.
- `Pipeline.run_against`: a pipeline before another backdrop.
-/

namespace CommandShell.Pipeline

variable {b : Backdrop}

/-- An operation on a sink of the screen that shows the same, whatever has been shown before. -/
def Shows (f : Screen → Sink Console × Screen) : Prop :=
  ∃ (k : Sink Console) (shown : Screen), (∀ e ∈ shown, e.echo = false) ∧ ∀ screen,
    f screen = (k, screen ++ shown)

theorem Shows.keep (k : Sink Console) : Shows fun w => (k, w) := ⟨k, [], by simp, by simp⟩

theorem Shows.trans {f : Screen → Sink Console × Screen}
    {g : Sink Console → Screen → Sink Console × Screen} (hf : Shows f) (hg : ∀ k, Shows (g k)) :
      Shows fun w => g (f w).1 (f w).2 := by
  obtain ⟨k, shown, hplain, hshown⟩ := hf
  obtain ⟨k', shown', hplain', hshown'⟩ := hg k
  refine ⟨k', shown ++ shown', ?_, fun screen => ?_⟩
  · intro e he
    exact (List.mem_append.mp he).elim (hplain e) (hplain' e)
  · simp only [hshown, hshown', List.append_assoc]

theorem Shows.ite {f g : Screen → Sink Console × Screen} (c : Prop) [Decidable c] (hf : Shows f)
    (hg : Shows g) : Shows fun w => if c then f w else g w := by
  by_cases hc : c
  · simpa only [if_pos hc] using hf
  · simpa only [if_neg hc] using hg

theorem Shows.settle (k : Sink Console) (shown : Screen)
    {operation : Screen → Stream.Reply Console Screen} (hplain : ∀ e ∈ shown, e.echo = false)
    (hshown : ∀ screen, operation screen = ⟨k.stream, screen ++ shown, false⟩) :
    Shows fun w => k.settle (operation w) :=
  ⟨{ k with broken := k.broken || false }, shown, hplain,
    fun screen => by simp only [hshown, Sink.settle]⟩

/-- An operation on sinks that shows the same on the screen, whatever has been shown there. -/
def SinkAction.Shows (f : SinkAction) : Prop := ∀ k : Sink Console, Pipeline.Shows (f k)

theorem shows_write (text : String) : SinkAction.Shows fun k w => k.write text w := fun k =>
  .ite _ (.keep k) (.settle k [{ channel := k.stream.channel, chunk := .text text }] (by simp)
    fun _ => rfl)

theorem shows_flush : SinkAction.Shows fun k w => k.flush w := fun k =>
  .ite _ (.keep k) (.settle k [] (by simp) fun screen => by simp [TextStream.flush])

theorem shows_writeBytes (bytes : Bytes) : SinkAction.Shows fun k w =>
    k.writeBytes bytes w := fun _ =>
  .ite _ (.keep _) (shows_write _ _)

/-- Closing a sink writes what is left of a character, and then shows nothing more. -/
theorem shows_close : SinkAction.Shows fun k w => k.close w := by
  intro k
  have hwritten := Shows.ite ((String.ofList (Utf8.finish k.pending)).isEmpty = true)
    (.keep { k with pending := .none })
      (shows_write (String.ofList (Utf8.finish k.pending)) { k with pending := .none })
  have hmark (k : Sink Console) : Shows fun w => ({ k with closed := true }, w) := .keep _
  have hrelease (k : Sink Console) : Shows fun w =>
      if k.owned then k.settle (TextStream.close k.stream w) else (k, w) :=
    .ite _ (.settle k [] (by simp) fun screen => by simp [TextStream.close]) (.keep k)
  exact .ite _ (.keep k) (((hwritten.trans shows_flush).trans hrelease).trans hmark)

namespace Outlets

variable (outlet : Outlet) (o : Outlets) (s : Session)

theorem act_against {f : SinkAction} (hf : f.Shows) :
    act f outlet o (s.against b) = ((act f outlet o s).1, (act f outlet o s).2.against b) := by
  cases outlet with
  | screen channel =>
    obtain ⟨k, shown, hplain, hshown⟩ := hf (o.screenSink channel)
    simp only [act, hshown, s.against_of_shown hplain]
  | file channel =>
    cases hk : o.heldSink (.file channel) with
    | none => simp only [act, hk]
    | some k => simp only [act, hk, s.world_against, s.onKernel_against, Session.absorb_against]
  | next =>
    cases hk : o.heldSink .next with
    | none => simp only [act, hk]
    | some k => simp only [act, hk, s.world_against, s.onKernel_against, Session.absorb_against]

theorem write_against (text : String) :
    write text outlet o (s.against b) =
      ((write text outlet o s).1, (write text outlet o s).2.against b) :=
  act_against outlet o s (shows_write text)

theorem writeBytes_against (bytes : Bytes) : writeBytes bytes outlet o (s.against b) =
    ((writeBytes bytes outlet o s).1, (writeBytes bytes outlet o s).2.against b) :=
  act_against outlet o s (shows_writeBytes bytes)

theorem flush_against :
    flush outlet o (s.against b) = ((flush outlet o s).1, (flush outlet o s).2.against b) :=
  act_against outlet o s shows_flush

theorem close_against :
    close outlet o (s.against b) = ((close outlet o s).1, (close outlet o s).2.against b) :=
  act_against outlet o s shows_close

end Outlets

theorem openTarget_against (s : Session) (channel : Channel) (target : FileTarget) (o : Outlets) :
    openTarget (s.against b) channel target o =
      (openTarget s channel target o).map fun opened => (opened.1, opened.2.against b) := by
  unfold openTarget
  rw [s.resolvePath_against, s.world_against]
  rcases s.world.openFile (s.resolvePath target.path) target.mode with _ | _ <;> rfl

theorem openErrors_against (s : Session) (err : Option ErrorTarget) (out : Outlet) (o : Outlets) :
    openErrors (s.against b) err out o =
      ((openErrors s err out o).1, (openErrors s err out o).2.against b) := by
  unfold openErrors
  rcases err with _ | target | _
  · rfl
  · dsimp only
    rw [openTarget_against]
    rcases openTarget s .err target o with f | ⟨o', s'⟩
    · exact congrArg (fun x => (Except.error f, x.2)) (Outlets.close_against (.file .out) o s)
    · rfl
  · rfl

theorem openRedirections_against (s : Session) (r : Redirections) :
    openRedirections (s.against b) r =
      ((openRedirections s r).1, (openRedirections s r).2.against b) := by
  unfold openRedirections
  have hsinks : Outlets.ofSession (s.against b) = Outlets.ofSession s := rfl
  rcases r.out with _ | target
  · exact openErrors_against s r.err _ _
  · dsimp only
    rw [hsinks, openTarget_against]
    rcases openTarget s .out target (Outlets.ofSession s) with f | ⟨o, s'⟩
    · rfl
    · exact openErrors_against s' r.err _ _

/-- A pipeline does not see what its backdrop is. -/
def Change.against (b : Backdrop) : Change where
  stages := id
  session := Session.against b
  apt _ := True
  upkeep _ _ _ _ := trivial
  commands _ := rfl
  kernel _ := rfl
  environment _ := rfl
  interrupts _ := rfl
  input _ := rfl
  start _ _ _ _ := rfl
  setInterrupts _ _ := rfl
  note := Session.note_against
  onKernel := Session.onKernel_against
  absorb := Session.absorb_against
  write text outlet o s := Outlets.write_against outlet o s text
  writeBytes bytes outlet o s := Outlets.writeBytes_against outlet o s bytes
  flush := Outlets.flush_against
  close := Outlets.close_against

/-- What comes of a pipeline before another backdrop. -/
def Outcome.against (b : Backdrop) (o : Outcome) : Outcome :=
  { o with session := o.session.against b }

theorem runWired_against {capture : Builtin.Capture} (hc : Builtin.Transparent capture)
    (s : Session) (stages : List Stage) (wiring : Wiring) :
    runWired capture (s.against b) stages wiring =
      (runWired capture s stages wiring).against b := by
  have hinit : Run.init (s.against b) stages wiring =
      (Run.init s stages wiring).changed (.against b) :=
    Run.init_changed (v := .against b) s stages wiring
  rw [runWired_eq_runFrom, hinit, runFrom_changed (Builtin.unseen_against hc) _ trivial]
  rfl

/-- A pipeline does the same before another backdrop. -/
theorem run_against {capture : Builtin.Capture} (hc : Builtin.Transparent capture) (s : Session)
    (stages : List Stage) : run capture (s.against b) stages =
    (run capture s stages).against b := by
  unfold run
  rcases stages.getLast? with _ | last
  · rfl
  · dsimp only
    rw [openRedirections_against]
    rcases openRedirections s last.redirections with ⟨f | wiring, s'⟩
    · cases f with
      | system e p =>
        dsimp only
        rw [Session.display_against]
        rfl
      | _ => rfl
    · exact runWired_against hc s' stages wiring

end CommandShell.Pipeline
