import CommandShell.Proofs.Scope.Run
import CommandShell.Shell

/-!
# Lines within a scope

A whole pipeline, and so a line that is run for a chat model, makes moves within every scope that
has what is new to the system. What nobody else knows of is therefore left alone by such lines.

## Main statements

- `Pipeline.makes_run`: running a pipeline within a scope.
- `Shell.captureWithin_capture`: lines that are run for a chat model stay within a scope.
-/

namespace CommandShell

variable {σ : Scope}

/-- A scope in which pipelines can be run from their start to their end. -/
structure Scope.Full (σ : Scope) : Prop where
  grips : σ.grips
  reaps : ∀ pid, σ.strikes pid → σ.reaps pid

namespace Pipeline

namespace Run

variable {r : Run}

namespace Within

theorem makes_join (h : r.Within σ) (hreaps : ∀ pid, σ.strikes pid → σ.reaps pid) :
    r.Makes σ r.join := by
  have hreap (jobs : List Job) (hj : ∀ job ∈ jobs, σ.reaps job.pid) (k : Kernel) :
      Kernel.Moves σ k (jobs.foldl (fun k job => k.reap job.pid) k) := by
    induction jobs generalizing k with
    | nil => exact .refl
    | cons job rest ih =>
      exact .head (.reap k (hj job List.mem_cons_self))
        (ih (fun j hmem => hj j (List.mem_cons_of_mem _ hmem)) _)
  have hnote := h.makes_note (.waiting r.kernel.held)
  have hawait := hnote.within.makes_await (r.note (.waiting r.kernel.held)).session.interrupts
  refine hnote.trans (hawait.trans (hawait.within.makes_onKernel ?_))
  exact (hreap _ (fun job hj => hreaps _ (hawait.within.jobs job hj)) _).trans
    (Kernel.Moves.settle _)

theorem makes_closeAll (h : r.Within σ) (hg : σ.grips) : r.Makes σ r.closeAll :=
  h.makes_closeEnds hg r.openEnds

theorem makes_tidy (h : r.Within σ) (hg : σ.grips) : r.Makes σ r.tidy := by
  have hall := h.makes_closeAll hg
  have hout := hall.within.makes_close hg (.file .out)
  have herr := hout.within.makes_close hg (.file .err)
  have hflush := herr.within.makes_flush (.screen .out)
  exact hall.trans (hout.trans
    (herr.trans (hflush.trans (hflush.within.makes_flush (.screen .err)))))

theorem makes_abandon (h : r.Within σ) : r.Makes σ r.abandon :=
  h.makes_onKernel (Kernel.Moves.settle _)

theorem makes_interruptBuiltins (h : r.Within σ) (indexed : List (Stage × Nat)) :
    r.Makes σ (r.interruptBuiltins indexed) := by
  induction indexed generalizing r with
  | nil => exact .refl h
  | cons stage rest ih =>
    have hfirst : r.Makes σ (if stage.1.isBuiltin then r.completePending stage.2 statusInterrupted
        else r) := by
      split
      · exact h.makes_completePending _ _
      · exact .refl h
    exact hfirst.trans (ih hfirst.within)

end Within

/-- Pipes that are made are new, and the shell holds both ends. -/
theorem moves_addPipes (hg : σ.grips) (n : Nat) {k : Kernel} (hk : k.Fresh σ) :
    Kernel.Moves σ k (addPipes n k).2 ∧
      ∀ pipe ∈ (addPipes n k).1, σ.touches (.reader pipe) ∧ σ.touches (.writer pipe) := by
  induction n generalizing k with
  | zero => exact ⟨.refl, by simp [addPipes]⟩
  | succ n ih =>
    have hreader := hk.reader k.nextNumber (Nat.le_refl _)
    have hwriter := hk.writer k.nextNumber (Nat.le_refl _)
    have hmade : Kernel.Moves σ k
        ((k.addPipe.2.hold (.reader k.nextNumber)).hold (.writer k.nextNumber)) :=
      ((Kernel.Moves.one (.pipe k)).tail (.hold _ hg hreader)).tail (.hold _ hg hwriter)
    obtain ⟨hrest, hpipes⟩ := ih (hk.advance hmade.advances)
    refine ⟨hmade.trans hrest, fun pipe hp => ?_⟩
    rcases List.mem_cons.mp hp with rfl | hp
    · exact ⟨hreader, hwriter⟩
    · exact hpipes pipe hp

theorem within_init (hg : σ.grips) {s : Session} (hs : s.Within σ) {wiring : Wiring}
    (hw : wiring.outlets.Within σ) (stages : List Stage) :
    (init s stages wiring).Within σ ∧ s.Makes σ (init s stages wiring).session := by
  obtain ⟨hmoves, hpipes⟩ := moves_addPipes hg (stages.length - 1) hs.fresh
  have hmade : s.Makes σ (init s stages wiring).session :=
    ⟨hmoves, ⟨rfl, rfl, rfl, rfl, rfl, .refl _⟩⟩
  exact ⟨⟨hmade.within hs, fun n hn => (hpipes n hn).1, fun n hn => (hpipes n hn).2, hw,
    fun _ hs => (nomatch hs), fun _ hj => (nomatch hj)⟩, hmade⟩

end Run

/-- Running stages whose files are open. -/
theorem makes_runWired (hσ : σ.Full) {capture : Builtin.Capture}
    (hc : Builtin.CaptureWithin σ capture) {s : Session} (hs : s.Within σ) {wiring : Wiring}
    (hw : wiring.outlets.Within σ) (stages : List Stage)
    (stops : Nat → Option Nat := fun _ => none) :
    s.Makes σ (runWired capture s stages wiring stops).session := by
  obtain ⟨hinit, hstart⟩ := Run.within_init hσ.grips hs hw stages
  have hspawn := hinit.makes_spawnAll hσ.grips stages.zipIdx
  unfold runWired
  extract_lets indexed
  split
  · next r hr =>
    rw [hr] at hspawn
    replace hspawn : (Run.init s stages wiring).Makes σ r := hspawn
    have htidy := hspawn.within.makes_tidy hσ.grips
    have hall := hspawn.trans (htidy.trans htidy.within.makes_abandon)
    exact hstart.trans hall.session
  · next r hr =>
    rw [hr] at hspawn
    replace hspawn : (Run.init s stages wiring).Makes σ r := hspawn
    have hran := hspawn.within.makes_runBuiltins hσ.grips hc indexed stops
    split
    · next r' hb =>
      rw [hb] at hran
      replace hran : r.Makes σ r' := hran
      have hjoin := hran.within.makes_join hσ.reaps
      have hall := hspawn.trans (hran.trans (hjoin.trans (hjoin.within.makes_tidy hσ.grips)))
      exact hstart.trans hall.session
    · next r' hb =>
      rw [hb] at hran
      replace hran : r.Makes σ r' := hran
      have hmark := hran.within.makes_interruptBuiltins indexed
      have hclose := hmark.within.makes_closeAll hσ.grips
      have hsend := hclose.within.makes_interruptPrograms
      have hjoin := hsend.within.makes_join hσ.reaps
      have hend := hjoin.trans (hjoin.within.makes_tidy hσ.grips)
      have hall := hspawn.trans (hran.trans (hmark.trans (hclose.trans (hsend.trans hend))))
      exact hstart.trans hall.session
    · next r' _ hb =>
      rw [hb] at hran
      replace hran : r.Makes σ r' := hran
      have htidy := hran.within.makes_tidy hσ.grips
      have hall := hspawn.trans (hran.trans (htidy.trans htidy.within.makes_abandon))
      exact hstart.trans hall.session

/-- What is opened for writing is new, unless it is nothing. -/
theorem touches_openText {s : Session} (hs : s.Within σ) {base : Place} {text : String}
    {access : Access} {h : Handle} {k : Kernel}
    (ho : s.world.openText base text access = .ok (h, k)) : σ.touches h := by
  have hnew := hs.fresh.file s.world.nextNumber (Nat.le_refl _)
  unfold Kernel.openText at ho
  extract_lets opened taken at ho
  repeat' split at ho
  all_goals cases ho
  all_goals first
    | exact hnew
    | exact hs.null
    | exact hs.directory

theorem openTarget_eq_ok {s s' : Session} {channel : Channel} {target : FileTarget} {o o' : Outlets}
    (ho : openTarget s channel target o = .ok (o', s')) :
    ∃ h k, s.world.openText s.world.directory (s.resolvePath target.path).text
        (World.accessOf target.mode) = .ok (h, k) ∧
      o' = o.setHeldSink (.file channel) (Sink.ofHandle h) ∧
      s' = s.onKernel fun _ => k.hold h := by
  obtain ⟨⟨h, world⟩, hopen, heq⟩ := except_map_eq_ok.mp ho
  obtain ⟨⟨h', k⟩, hguarded, hworld⟩ := except_map_eq_ok.mp hopen
  obtain ⟨rfl, rfl⟩ := Prod.mk.inj hworld
  obtain ⟨rfl, rfl⟩ := Prod.mk.inj heq
  refine ⟨h', k, ?_, rfl, rfl⟩
  unfold World.guarded at hguarded
  split at hguarded
  · cases hguarded
  · split at hguarded
    · next hok =>
      cases hguarded
      split at hok
      · cases hok
      · exact hok
    · cases hguarded

theorem makes_openTarget (hg : σ.grips) {s s' : Session} (hs : s.Within σ) {o o' : Outlets}
    (hw : o.Within σ) {channel : Channel} {target : FileTarget}
    (ho : openTarget s channel target o = .ok (o', s')) : s.Makes σ s' ∧ o'.Within σ := by
  obtain ⟨h, k, hopen, rfl, rfl⟩ := openTarget_eq_ok ho
  have htouch := touches_openText hs hopen
  refine ⟨.onKernel ((Kernel.Moves.openText hs.free hopen).tail (.hold k hg htouch)),
    fun outlet k' hk' => ?_, fun c hd => ?_⟩
  · obtain ⟨-, rfl⟩ | hold := Outlets.heldSink_setHeldSink hk'
    · exact htouch
    · exact hw.devices outlet k' hold
  · rw [Outlets.screenSink_setHeldSink] at hd
    exact hw.consoles c hd

theorem within_ofSession {s : Session} (hs : s.Within σ) : (Outlets.ofSession s).Within σ where
  devices outlet k hk := by
    rcases outlet with c | c | _ <;> try cases c
    all_goals cases hk
  consoles channel hd := hs.screen (by cases channel <;> exact hd) channel

theorem makes_openErrors (hg : σ.grips) {s : Session} (hs : s.Within σ) (err : Option ErrorTarget)
    (out : Outlet) {o : Outlets} (hw : o.Within σ) :
    s.Makes σ (openErrors s err out o).2 ∧
      ∀ wiring, (openErrors s err out o).1 = .ok wiring → wiring.outlets.Within σ := by
  unfold openErrors
  split
  · refine ⟨.refl s, fun wiring h => ?_⟩
    cases h
    exact hw
  · refine ⟨.refl s, fun wiring h => ?_⟩
    cases h
    exact hw
  · split
    · exact ⟨(Outlets.makes_act (moving_close hg) (.file .out) hs hw).1, fun _ h => nomatch h⟩
    · next ho =>
      obtain ⟨hmade, hwithin⟩ := makes_openTarget hg hs hw ho
      refine ⟨hmade, fun wiring h => ?_⟩
      cases h
      exact hwithin

/-- Opening the files that the last stage is redirected to. -/
theorem makes_openRedirections (hg : σ.grips) {s : Session} (hs : s.Within σ) (r : Redirections) :
    s.Makes σ (openRedirections s r).2 ∧
      ∀ wiring, (openRedirections s r).1 = .ok wiring → wiring.outlets.Within σ := by
  unfold openRedirections
  split
  · exact makes_openErrors hg hs _ _ (within_ofSession hs)
  · split
    · exact ⟨.refl s, fun _ h => nomatch h⟩
    · next ho =>
      obtain ⟨hmade, hwithin⟩ := makes_openTarget hg hs (within_ofSession hs) ho
      obtain ⟨hrest, hwiring⟩ := makes_openErrors hg (hmade.within hs) r.err (.file .out) hwithin
      exact ⟨hmade.trans hrest, hwiring⟩

theorem makes_run (hσ : σ.Full) {capture : Builtin.Capture} (hc : Builtin.CaptureWithin σ capture)
    {s : Session} (hs : s.Within σ) (stages : List Stage)
    (stops : Nat → Option Nat := fun _ => none) :
    s.Makes σ (run capture s stages stops).session := by
  unfold run
  split
  · exact .refl s
  · next last _ =>
    obtain ⟨hopened, hwiring⟩ := makes_openRedirections hσ.grips hs last.redirections
    split <;> next ho =>
      rw [ho] at hopened hwiring
      first
      | exact hopened.trans (makes_runWired hσ hc (hopened.within hs) (hwiring _ rfl) stages stops)
      | exact hopened
      | exact hopened.trans ⟨.refl, ⟨rfl, rfl, rfl, rfl, rfl, .refl _⟩⟩

end Pipeline

namespace Shell

theorem makes_captureStages (hσ : σ.Full) {capture : Builtin.Capture}
    (hc : Builtin.CaptureWithin σ capture) {s : Session} (hs : s.Within σ) (stages : List Stage) :
    s.Makes σ (captureStages capture s stages).2 := by
  have hhidden : Session.Within σ { s with screen := [], direct := false } :=
    ⟨hs.machine, hs.null, hs.reader, hs.directory, hs.free, fun hd => (nomatch hd), hs.fresh⟩
  have hran := Pipeline.makes_run hσ hc hhidden stages
  unfold captureStages
  dsimp only
  obtain ⟨hmachine, -, henvironment, hsettings, hclient, hhistory⟩ := hran.steady
  split <;> exact ⟨hran.moves, hmachine, rfl, henvironment, hsettings, hclient, hhistory⟩

/-- Lines that are run for a chat model stay within every scope that has what is new. -/
theorem captureWithin_capture (hσ : σ.Full) (depth : Nat) :
    Builtin.CaptureWithin σ (capture depth) := by
  intro line s hs
  induction depth generalizing line s with
  | zero => exact .refl s
  | succ depth ih =>
    unfold capture
    split
    · split
      · exact .refl s
      · exact .refl s
      · exact makes_captureStages hσ ih hs _
    · exact .refl s

end Shell

end CommandShell
