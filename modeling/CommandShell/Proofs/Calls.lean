import CommandShell.Proofs.Builtin.Frame
import CommandShell.Proofs.Capturing
import CommandShell.Proofs.Leaving
import CommandShell.Proofs.Prompting

/-!
# The builtins that a line calls

Which builtins are called while a line is run is decided as it goes: a program may be missing, a
pipeline may be halted, and a chat model may have further lines run, which call builtins in turn.
Nothing but these calls leaves a frame, so a line stays within a frame that its calls stay within.

## Main statements

- `Pipeline.within_run`: a pipeline stays within a frame if the builtins that it calls do.
- `Shell.within_run`: a line does so if all calls do that are made for it, by whatever line.
-/

namespace CommandShell

open Session (Frame)

variable {R : Session → Session → Prop}

namespace Pipeline

variable (capture : Builtin.Capture)

/-- While the builtins of stages are run, one of them is called in some state of the run. -/
inductive Run.Calls : List (Stage × Nat) → Run → Stage → Nat → Builtin → Run → Prop where
  | now {stage : Stage} {i : Nat} {b : Builtin} {rest : List (Stage × Nat)} {r : Run}
      (target : stage.target = .builtin b) :
        Calls ((stage, i) :: rest) r stage i b (r.entered i stage)
  | program {stage stage' : Stage} {i i' : Nat} {b : Builtin} {rest : List (Stage × Nat)}
      {r r' : Run}
      {path : Option Path} (target : stage.target = .program path)
        (later : Calls rest r stage' i' b r') :
      Calls ((stage, i) :: rest) r stage' i' b r'
  | builtin {stage stage' : Stage} {i i' : Nat} {b b' : Builtin} {rest : List (Stage × Nat)}
      {r r' r'' : Run}
      (target : stage.target = .builtin b') (ran : r.runBuiltin capture i stage b' = (none, r'))
      (later : Calls rest r' stage' i' b r'') : Calls ((stage, i) :: rest) r stage' i' b r''

/-- While stages are run in a session, the builtin of one of them is called in some state of the
run. -/
structure Calls (s : Session) (stages : List Stage) (stage : Stage) (i : Nat) (b : Builtin)
    (r : Run) : Prop where
  ran : ∃ last s' wiring started, stages.getLast? = some last ∧
    openRedirections s last.redirections = (.ok wiring, s') ∧
    Run.spawnAll stages.zipIdx (Run.init s' stages wiring) = (none, started) ∧
    Run.Calls capture stages.zipIdx started stage i b r

variable {capture}

/-- What is called is the builtin of a stage. -/
theorem Run.Calls.mem {indexed : List (Stage × Nat)} {r r' : Run} {stage : Stage} {i : Nat}
    {b : Builtin} (h : Run.Calls capture indexed r stage i b r') : (stage, i) ∈ indexed ∧
      stage.target = .builtin b := by
  induction h with
  | now target => exact ⟨List.mem_cons_self, target⟩
  | program _ _ ih => exact ⟨List.mem_cons_of_mem _ ih.1, ih.2⟩
  | builtin _ _ _ ih => exact ⟨List.mem_cons_of_mem _ ih.1, ih.2⟩

theorem Calls.mem {s : Session} {stages : List Stage} {stage : Stage} {i : Nat}
    {b : Builtin} {r : Run} (h : Calls capture s stages stage i b r) :
      stage ∈ stages ∧ stage.target = .builtin b := by
  obtain ⟨_, _, _, _, -, -, -, hcalled⟩ := h.ran
  exact ⟨(List.mem_zipIdx hcalled.mem.1).2.2 ▸ List.getElem_mem _, hcalled.mem.2⟩

/-- The builtins of stages stay within a frame if each does that is called. -/
theorem Run.within_runBuiltins (hR : Frame R) (indexed : List (Stage × Nat)) (r : Run)
    (hcalls : ∀ stage i b r', Run.Calls capture indexed r stage i b r' →
      R r'.session (b.runFor (host i) capture stage.args r').2.session) :
    R r.session (runBuiltins capture indexed r).2.session := by
  induction indexed generalizing r with
  | nil => exact hR.refl _
  | cons stage rest ih =>
    unfold runBuiltins
    split
    · next path ht => exact ih r fun _ _ _ _ h => hcalls _ _ _ _ (.program ht h)
    · next b ht =>
      have hfirst : R r.session (r.runBuiltin capture stage.2 stage.1 b).2.session :=
        hR.trans _ _ _ (hR.upkeep _ _ (r.upkeep_entered stage.2 stage.1))
          (hR.trans _ _ _ (hcalls _ _ _ _ (.now ht))
            (hR.upkeep _ _ (r.upkeep_runBuiltin capture stage.2 stage.1 b)))
      split
      · next r' hb =>
        rw [hb] at hfirst
        exact hR.trans _ _ _ hfirst (ih r' fun _ _ _ _ h => hcalls _ _ _ _ (.builtin ht hb h))
      · exact hfirst

theorem within_runWired (hR : Frame R) (s : Session) (stages : List Stage) (wiring : Wiring)
    (hcalls : ∀ started, Run.spawnAll stages.zipIdx (Run.init s stages wiring) = (none, started) →
      ∀ stage i b r, Run.Calls capture stages.zipIdx started stage i b r →
        R r.session (b.runFor (Run.host i) capture stage.args r).2.session) :
    R s (runWired capture s stages wiring).session := by
  rcases hspawn : Run.spawnAll stages.zipIdx (Run.init s stages wiring) with ⟨_ | halt, started⟩
  · have hbefore := hR.upkeep _ _ (upkeep_beforeBuiltins s stages wiring)
    rw [hspawn] at hbefore
    have hran := started.within_runBuiltins hR stages.zipIdx (hcalls started hspawn)
    have hafter := hR.upkeep _ _ (upkeep_afterBuiltins capture s stages wiring hspawn)
    exact hR.trans _ _ _ hbefore (hR.trans _ _ _ hran hafter)
  · exact hR.upkeep _ _ (upkeep_runWired_halted capture s stages wiring hspawn)

/-- A pipeline stays within a frame if the builtins do that it calls. -/
theorem within_run (hR : Frame R) (s : Session) (stages : List Stage)
    (hcalls : ∀ stage i b r, Calls capture s stages stage i b r →
      R r.session (b.runFor (Run.host i) capture stage.args r).2.session) :
    R s (run capture s stages).session := by
  unfold run
  split
  · exact hR.refl s
  · next last hlast =>
    have hopened := hR.upkeep _ _ (upkeep_openRedirections s last.redirections)
    rcases ho : openRedirections s last.redirections with ⟨f | wiring, s'⟩ <;> rw [ho] at hopened
    · cases f with
      | system e p => exact hR.trans _ _ _ hopened (hR.upkeep _ _ (.shown _ _))
      | _ => exact hopened
    · refine hR.trans _ _ _ hopened
        (within_runWired hR s' stages wiring fun started hspawn _ _ _ _ h => ?_)
      exact hcalls _ _ _ _ ⟨last, s', wiring, started, hlast, ho, hspawn, h⟩

end Pipeline

namespace Shell

/-- While stages are run, a builtin is called with some arguments: by one of them, or by a line that
a chat model has asked for, as deep as such lines may be run. -/
inductive Calls : Nat → Session → List Stage → Builtin → List String → Prop where
  | direct {depth : Nat} {s : Session} {stages : List Stage} {stage : Stage} {i : Nat} {b : Builtin}
      {r : Pipeline.Run} (called : Pipeline.Calls (capture depth) s stages stage i b r) :
      Calls depth s stages b stage.args
  | asked {depth : Nat} {s : Session} {stages stages' : List Stage} {stage : Stage} {i : Nat}
      {b : Builtin}
      {args : List String} {r r' : Pipeline.Run} {client : Chat.Client} {units : CodeUnits}
      (called : Pipeline.Calls (capture (depth + 1)) s stages stage i .ai r)
      (client_eq : r.session.client = some client)
      (requested : Chat.Requests ((Pipeline.Run.host i).partner client (capture (depth + 1)))
        Chat.maxSteps (String.intercalate " " stage.args) r (.str units) r')
      (parsed : Stage.parse r'.session units.text = .ok stages')
      (later : Calls depth { r'.session with screen := [], direct := false } stages' b args) :
      Calls (depth + 1) s stages b args

/-- What is called is the builtin of a stage, or one of the stages asks a chat model. -/
theorem Calls.mem {depth : Nat} {s : Session} {stages : List Stage} {b : Builtin}
    {args : List String} (h : Calls depth s stages b args) :
    ∃ stage ∈ stages, stage.target = .builtin .ai ∨ stage.target = .builtin b ∧
      args = stage.args := by
  cases h with
  | direct called => exact ⟨_, called.mem.1, .inr ⟨called.mem.2, rfl⟩⟩
  | asked called _ _ _ _ => exact ⟨_, called.mem.1, .inl called.mem.2⟩

/-- While a line is captured, a builtin is called with some arguments. -/
inductive CapturedCalls : Nat → Session → Json → Builtin → List String → Prop where
  | mk {depth : Nat} {s : Session} {units : CodeUnits} {stages : List Stage} {b : Builtin}
      {args : List String} (parsed : Stage.parse s units.text = .ok stages)
      (called : Calls depth { s with screen := [], direct := false } stages b args) :
      CapturedCalls (depth + 1) s (.str units) b args

section Frames

variable (hR : Frame R) (hsend : ∀ (s : Session) messages, R s { s with messages })
  (hdirect : ∀ (s : Session) direct, R s { s with direct })
include hR hdirect

/-- A captured line stays within a frame if its stages do on the screen of their own. -/
theorem within_capture_of_stages {depth : Nat} {line : Json} {s : Session}
    (hstages : ∀ units stages, line = .str units → Stage.parse s units.text = .ok stages →
      R { s with screen := [], direct := false }
        (Pipeline.run (capture depth) { s with screen := [], direct := false } stages).session) :
    R s (capture (depth + 1) line s).2 := by
  -- the screen is a matter of upkeep, and so is all of the change but for whether programs can
  -- write to it
  have hscreen (s : Session) (screen : Screen) (direct : Bool) : R s { s with screen, direct } :=
    hR.trans _ _ _ (hR.upkeep _ _ (.shown s screen)) (hdirect _ direct)
  unfold capture
  split
  · next units =>
    split
    · exact hR.refl s
    · exact hR.refl s
    · next stages _ hparse =>
      rw [captureStages_eq]
      exact hR.trans _ _ _ (hscreen s [] false)
        (hR.trans _ _ _ (hstages units stages rfl hparse) (hscreen _ _ _))
  · exact hR.refl s

include hsend

/-- A pipeline stays within a frame if all builtins do that are called for it, by its stages or by
lines that a chat model has asked for. -/
theorem within_run (depth : Nat) (s : Session) (stages : List Stage)
    (hcalls : ∀ b args, Calls depth s stages b args → b ≠ .ai →
      ∀ capture t, R t (b.run capture t args).session) :
    R s (Pipeline.run (capture depth) s stages).session := by
  induction depth generalizing s stages with
  | zero =>
    refine Pipeline.within_run hR s stages fun stage i b r hcalled => ?_
    refine Builtin.runFor_within hR (Pipeline.Run.upkeeps_host i) b stage.args r
      (fun hb => hcalls b stage.args (.direct hcalled) hb _ _) hsend ?_
    intro _ _ _ y _ _
    exact hR.refl y.session
  | succ depth ih =>
    refine Pipeline.within_run hR s stages fun stage i b r hcalled => ?_
    refine Builtin.runFor_within hR (Pipeline.Run.upkeeps_host i) b stage.args r
      (fun hb => hcalls b stage.args (.direct hcalled) hb _ _) hsend ?_
    rintro rfl client line y hclient hrequest
    refine within_capture_of_stages hR hdirect fun units stages' hline hparse =>
      ih _ _ fun b args hlater => ?_
    subst hline
    exact hcalls b args (.asked hcalled hclient hrequest hparse hlater)

/-- So does a line that is captured. -/
theorem within_capture (depth : Nat) (line : Json) (s : Session)
    (hcalls : ∀ b args, CapturedCalls depth s line b args → b ≠ .ai →
      ∀ capture t, R t (b.run capture t args).session) :
    R s (capture depth line s).2 := by
  cases depth with
  | zero => exact hR.refl s
  | succ depth =>
    refine within_capture_of_stages hR hdirect fun units stages hline hparse => ?_
    refine within_run hR hsend hdirect depth _ stages fun b args hcalled => ?_
    subst hline
    exact hcalls b args (.mk hparse hcalled)

end Frames

end Shell

end CommandShell
