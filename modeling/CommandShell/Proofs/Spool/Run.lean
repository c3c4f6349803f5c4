import CommandShell.Proofs.Builtin.Edits
import CommandShell.Proofs.Builtin.Reply
import CommandShell.Proofs.Pump
import CommandShell.Proofs.Scope.Run
import CommandShell.Proofs.Spool.Sink
import Mathlib.Data.List.TakeDrop

/-!
# Running around a spool

A file that the last stage of a pipeline is redirected to is a spool. Nothing that is done for the
other stages, or while the shell waits, concerns its sink or what it holds; only programs of the
last stage write to it.

## Main statements

- `Run.Aside.passes_spawnAll`, `Run.Aside.passes_runBuiltins`: what is done for the stages before
  the last.
- `Run.Aside.passes_join`: waiting for the programs.
-/

namespace CommandShell

open FileSystem (Leads)

variable {d : Spool} {c : Channel}

theorem Scope.around_touches {x : Handle} (hx : ∀ n, x ≠ .file n) : (Scope.around d).touches x :=
  fun n heq => absurd heq (hx n)

theorem Session.makes_absorb (s : Session) : s.Makes (.around d) s.absorb := by
  unfold Session.absorb
  split
  · exact ⟨.one (.forget _ fun _ _ => Scope.around_touches (by simp)),
      ⟨rfl, rfl, rfl, rfl, rfl, .refl _⟩⟩
  · exact .refl s

/-- Noting something in the log does nothing to the system. -/
theorem Session.makes_note (s : Session) (level : Log.Level) (source message : String)
    (pid : Option Nat) : s.Makes (.around d) (s.note level source message pid) := by
  unfold Session.note
  generalize s.log.record _ = recorded
  obtain ⟨log, _ | ⟨channel, line⟩⟩ :=
    recorded <;> exact ⟨.refl, ⟨rfl, rfl, rfl, rfl, rfl, .refl _⟩⟩

/-- A stage whose program, if it has one, opens nothing at a place for writing. -/
def Stage.Starts (origin : FileSystem) (place : Place) (machine : Machine) (stage : Stage) : Prop :=
  ∀ path, stage.target = .program (some path) → ∀ (s : Session) process, s.machine = machine →
    Pipeline.start s (stage.command :: stage.args) path = .ok process → process.Avoids origin place

/-- A stage whose builtin, if it has one, runs no lines and by itself does nothing to a place. -/
def Stage.Edits (origin : FileSystem) (place : Place) (capture : Builtin.Capture)
    (environment : Environment) (stage : Stage) : Prop :=
  ∀ b, stage.target = .builtin b → b ≠ .ai ∧ ∀ s : Session, s.environment = environment →
    Leads origin s.world.files →
    Leads s.world.files (b.run capture s stage.args).session.world.files ∧
      (b.run capture s stage.args).session.world.files.get? place = s.world.files.get? place

namespace Pipeline

namespace Reader

/-- The chunks that are read are for the sinks of what comes out. -/
theorem forall_chunksFrom {κ : Type} {P : κ → Prop} {spills : List (κ × Spill)}
    (hs : ∀ x ∈ spills, P x.1) {waking : List (Waking κ)} (hw : ∀ w ∈ waking, P w.sink) :
      ∀ x ∈ chunksFrom waking spills, P x.1 := by
  have hchunks (ready : List (Waking κ)) (hr : ∀ w ∈ ready, P w.sink) :
      ∀ x ∈ ready.map Waking.chunk, P x.1 := by
    intro x hx
    obtain ⟨w, hmem, rfl⟩ := List.mem_map.mp hx
    exact hr w hmem
  have hreceive (sink : κ) (hsink : P sink) (spill : Spill) (waking : List (Waking κ))
      (hw : ∀ w ∈ waking, P w.sink) :
      ∀ w ∈ receive sink spill waking, P w.sink := by
    induction waking with
    | nil => simpa [receive] using hsink
    | cons w rest ih =>
      unfold receive
      split
      · simpa using hw
      · simpa using ⟨hw w List.mem_cons_self, ih fun v hv => hw v (List.mem_cons_of_mem _ hv)⟩
  induction spills generalizing waking with
  | nil => exact hchunks waking hw
  | cons s rest ih =>
    obtain ⟨sink, spill⟩ := s
    unfold chunksFrom
    rw [List.span_eq_takeWhile_dropWhile]
    intro x hx
    rcases List.mem_append.mp hx with hx | hx
    · exact hchunks _ (fun w hmem => hw w ((List.takeWhile_sublist _).mem hmem)) x hx
    · refine ih (fun y hy => hs y (List.mem_cons_of_mem _ hy))
        (hreceive sink (hs _ List.mem_cons_self) spill _ ?_) x hx
      exact fun w hmem => hw w ((List.dropWhile_sublist _).mem hmem)

end Reader

@[simp] theorem Outlets.heldSink_setHeldSink_of_ne {outlet outlet' : Outlet} (h : outlet' ≠ outlet)
    (o : Outlets) (s : HeldSink) :
    (o.setHeldSink outlet s).heldSink outlet' = o.heldSink outlet' := by
  rcases outlet with x | x | _ <;> rcases outlet' with y | y | _ <;> try cases x
  all_goals try cases y
  all_goals first
    | rfl
    | exact absurd rfl h

namespace Run

/-- A run that concerns a spool only through the sink of one of its files. -/
structure Aside (d : Spool) (c : Channel) (r : Run) : Prop where
  spools : ∃ content, r.kernel.Spools d content
  devices : ∀ outlet s, outlet ≠ .file c → r.wiring.outlets.heldSink outlet = some s →
    (Scope.around d).touches s.stream.device
  streams : ∀ x ∈ r.streams, x.2 ≠ .file c
  queue : ∀ x ∈ r.pump.queue, x.1 ≠ .file c

/-- A run that has come from another one, and the sink of one of its files has not been used. -/
structure Passes (d : Spool) (c : Channel) (r r' : Run) : Prop where
  aside : r'.Aside d c
  session : r.session.Makes (.around d) r'.session
  sink : r'.wiring.outlets.heldSink (.file c) = r.wiring.outlets.heldSink (.file c)
  out : r'.wiring.out = r.wiring.out
  err : r'.wiring.err = r.wiring.err
  stages : r'.stages = r.stages

variable {r r' r'' : Run}

namespace Passes

theorem refl (h : r.Aside d c) : r.Passes d c r := ⟨h, .refl _, rfl, rfl, rfl, rfl⟩

theorem trans (h : r.Passes d c r') (g : r'.Passes d c r'') : r.Passes d c r'' :=
  ⟨g.aside, h.session.trans g.session, g.sink.trans h.sink, g.out.trans h.out, g.err.trans h.err,
    g.stages.trans h.stages⟩

theorem isLast (h : r.Passes d c r') (i : Nat) : r'.isLast i = r.isLast i := by
  simp only [Run.isLast, h.stages]

theorem errOutlet (h : r.Passes d c r') (i : Nat) : r'.errOutlet i = r.errOutlet i := by
  simp only [Run.errOutlet, h.isLast, h.err]

theorem outletFor (h : r.Passes d c r') (i : Nat) (channel : Channel) :
    r'.outletFor i channel = r.outletFor i channel := by
  cases channel with
  | out => simp only [Run.outletFor, Run.outOutlet, h.isLast, h.out]
  | err => exact h.errOutlet i

end Passes

namespace Aside

theorem passes_session (h : r.Aside d c) {s : Session} (hs : r.session.Makes (.around d) s) :
    r.Passes d c { r with session := s } := by
  obtain ⟨content, hk⟩ := h.spools
  obtain ⟨bytes, hk', -⟩ := hk.moves hs.moves
  exact ⟨⟨⟨_, hk'⟩, h.devices, h.streams, h.queue⟩, hs, rfl, rfl, rfl, rfl⟩

theorem passes_onLedger (h : r.Aside d c) {f : Ledger → Ledger}
    (hf : (f r.toLedger).stages = r.stages) :
    r.Passes d c (r.onLedger f) :=
      ⟨⟨h.spools, h.devices, h.streams, h.queue⟩, .refl _, rfl, rfl, rfl, hf⟩

theorem passes_note (h : r.Aside d c) (e : Event) : r.Passes d c (r.note e) := h.passes_onLedger rfl

theorem passes_log (h : r.Aside d c) (level : Log.Level) (message : String) (pid : Option Nat) :
    r.Passes d c (r.log level message pid) := h.passes_session (Session.makes_note ..)

theorem passes_onKernel (h : r.Aside d c) {f : Kernel → Kernel}
    (hf : Kernel.Moves (.around d) r.kernel (f r.kernel)) : r.Passes d c (r.onKernel f) := by
  have hmade : r.session.Makes (.around d) (r.session.onKernel f) := .onKernel hf
  exact h.passes_session (hmade.trans (Session.makes_absorb _))

theorem passes_act (h : r.Aside d c) {f : SinkAction} (hf : f.Moving (.around d)) {outlet : Outlet}
    (ho : outlet ≠ .file c) : r.Passes d c (r.onOutlet (Outlets.act f outlet)) := by
  cases hs : r.wiring.outlets.heldSink outlet with
  | none =>
    unfold onOutlet Outlets.act
    cases outlet with
    | screen channel =>
      refine ⟨⟨h.spools, fun outlet s ho hs => ?_, h.streams, h.queue⟩,
        ⟨.refl, ⟨rfl, rfl, rfl, rfl, rfl, .refl _⟩⟩, ?_, rfl, rfl, rfl⟩
      · exact h.devices outlet s ho (by simpa using hs)
      · exact Outlets.heldSink_setScreenSink ..
    | _ =>
      simp only [hs]
      exact .refl h
  | some s =>
    have htouch := h.devices outlet s ho hs
    have hmade := h.passes_onKernel (f := fun _ => (f s r.kernel).2) (hf.moves s r.kernel htouch)
    have hact : Outlets.act f outlet r.wiring.outlets r.session =
        (r.wiring.outlets.setHeldSink outlet (f s r.kernel).1,
          (r.onKernel fun _ => (f s r.kernel).2).session) := by
      unfold Outlets.act
      cases outlet with
      | screen => cases hs
      | _ => simp only [hs]; rfl
    unfold onOutlet
    rw [hact]
    refine ⟨⟨hmade.aside.spools, fun outlet' s' ho' hs' => ?_, h.streams, h.queue⟩, hmade.session,
      ?_, rfl, rfl, rfl⟩
    · obtain ⟨-, rfl⟩ | hold := Outlets.heldSink_setHeldSink hs'
      · exact (hf.device s r.kernel htouch).symm ▸ htouch
      · exact h.devices outlet' s' ho' hold
    · exact Outlets.heldSink_setHeldSink_of_ne ho.symm _ _

theorem passes_write (h : r.Aside d c) {outlet : Outlet} (ho : outlet ≠ .file c) (text : String) :
    r.Passes d c (r.write outlet text) := h.passes_act (moving_write text) ho

theorem passes_flush (h : r.Aside d c) {outlet : Outlet} (ho : outlet ≠ .file c) :
    r.Passes d c (r.flush outlet) := h.passes_act moving_flush ho

theorem passes_close (h : r.Aside d c) {outlet : Outlet} (ho : outlet ≠ .file c) :
    r.Passes d c (r.onOutlet (Outlets.close outlet)) := h.passes_act (moving_close trivial) ho

/-- What a coupler end leads to is no file. -/
theorem touches_endHandle (r : Run) (e : CouplerEnd) :
    (Scope.around d).touches (r.endHandle e) := by
  have hget (i : Nat) (f : Nat → Handle) (hf : ∀ n m, f n ≠ .file m) (m : Nat) :
      (r.couplers[i]?.map f).getD .null ≠ .file m := by
    cases r.couplers[i]? with
    | none => exact nofun
    | some n => exact hf n m
  cases e with
  | read i => exact Scope.around_touches (hget i _ nofun)
  | write i => exact Scope.around_touches (hget i _ nofun)

/-- What a stage reads from is no file. -/
theorem touches_inputHandle (r : Run) (i : Nat) : (Scope.around d).touches (r.inputHandle i) := by
  unfold inputHandle
  split
  · split
    · unfold Session.inputHandle
      cases r.session.input with
      | none => exact Scope.around_touches (by simp)
      | some pipe => exact Scope.around_touches (by simp)
    · exact Scope.around_touches (by simp)
  · exact touches_endHandle r _

theorem passes_closeEnd (h : r.Aside d c) (e : CouplerEnd) : r.Passes d c (r.closeEnd e) := by
  unfold closeEnd
  split
  · have hdrop := h.passes_onKernel (f := fun k => k.letGo (r.endHandle e))
      (.one (.letGo _ trivial (touches_endHandle r e)))
    exact hdrop.trans (hdrop.aside.passes_onLedger rfl)
  · exact .refl h

theorem passes_closeEnds (h : r.Aside d c) (ends : List CouplerEnd) :
    r.Passes d c (r.closeEnds ends) := by
  unfold closeEnds
  induction ends generalizing r with
  | nil => exact .refl h
  | cons e rest ih =>
    have hfirst := h.passes_closeEnd e
    exact hfirst.trans (ih hfirst.aside)

theorem passes_notFound (h : r.Aside d c) {i : Nat} (ho : r.errOutlet i ≠ .file c) (stage : Stage) :
    r.Passes d c (r.notFound i stage) := by
  have hwrite := h.passes_write ho (stage.command ++ ": command not found\n")
  have hflush := hwrite.aside.passes_flush ho
  have hlog := hflush.aside.passes_log .warning ("command not found: " ++ stage.command) none
  exact hwrite.trans (hflush.trans
    (hlog.trans (hlog.aside.passes_onLedger (f := fun l => l.miss i) rfl)))

theorem passes_cannotStart (h : r.Aside d c) {i : Nat} (ho : r.errOutlet i ≠ .file c)
    (stage : Stage) (e : StartError) : r.Passes d c (r.cannotStart i stage e) := by
  have hlog := h.passes_log .warning ("cannot start " ++ stage.command ++ ": " ++ e.message) none
  have hwrite := hlog.aside.passes_write ho (stage.command ++ ": " ++ e.error.text ++ "\n")
  have hflush := hwrite.aside.passes_flush ho
  exact hlog.trans (hwrite.trans
    (hflush.trans (hflush.aside.passes_onLedger (f := fun l => l.refuse i) rfl)))

theorem passes_attach (h : r.Aside d c) {streams : List (Nat × Outlet)}
    (hs : ∀ x ∈ streams, x.2 ≠ .file c) : r.Passes d c (r.attach streams) := by
  unfold attach
  induction streams generalizing r with
  | nil => exact .refl h
  | cons stream rest ih =>
    have hfirst : r.Passes d c
        { r with pump := r.pump.attach, streams := r.streams ++ [stream] } := by
      refine ⟨⟨h.spools, h.devices, fun x hx => ?_, h.queue⟩, .refl _, rfl, rfl, rfl, rfl⟩
      rcases List.mem_append.mp hx with hold | hnew
      · exact h.streams x hold
      · exact List.mem_singleton.mp hnew ▸ hs stream List.mem_cons_self
    exact hfirst.trans (ih hfirst.aside fun x hx => hs x (List.mem_cons_of_mem _ hx))

/-- What a program is given for an outlet is not the spool. -/
theorem passes_routeTo (h : r.Aside d c) {outlet : Outlet} (ho : outlet ≠ .file c) :
    r.Passes d c (r.routeTo outlet).1 ∧ (Scope.around d).touches (r.routeTo outlet).2.1 ∧
      ∀ x ∈ (r.routeTo outlet).2.2, x.2 ≠ .file c := by
  have hflush := h.passes_flush ho
  unfold routeTo
  generalize r.flush outlet = r₁ at hflush
  dsimp only
  split
  · next handle hh =>
    refine ⟨hflush, ?_, by simp⟩
    unfold Outlets.handle? at hh
    split at hh
    · split at hh
      · obtain rfl := Option.some.inj hh
        exact Scope.around_touches (by simp)
      · cases hh
    · obtain ⟨s, hs, hhandle⟩ := Option.bind_eq_some_iff.mp hh
      split at hhandle
      · obtain rfl := Option.some.inj hhandle
        exact hflush.aside.devices _ s ho hs
      · cases hhandle
  · have hbump := hflush.aside.passes_onKernel
      (f := fun k => { k with nextNumber := r₁.kernel.nextNumber + 1 }) (.one (.number r₁.kernel))
    exact ⟨hflush.trans hbump, Scope.around_touches (by simp), by simpa using ho⟩

/-- What a program of a stage before the last is given does not include the spool. -/
theorem passes_descriptorsFor (h : r.Aside d c) {i : Nat} (hi : r.isLast i = false)
    (merges : Bool) : r.Passes d c (r.descriptorsFor i merges).1 ∧
      (∀ x ∈ (r.descriptorsFor i merges).2.1, (Scope.around d).touches x.2) ∧
      ∀ x ∈ (r.descriptorsFor i merges).2.2, x.2 ≠ .file c := by
  have herr : r.errOutlet i ≠ .file c := by simp [errOutlet, hi]
  obtain ⟨hpass, htouch, hstreams⟩ := h.passes_routeTo herr
  unfold descriptorsFor
  simp only [hi, Bool.false_and, Bool.false_eq_true, if_false, List.nil_append]
  refine ⟨hpass, ?_, hstreams⟩
  simp only [List.mem_cons, List.not_mem_nil, or_false, forall_eq_or_imp, forall_eq]
  exact ⟨touches_inputHandle r i, touches_endHandle r _, htouch⟩

theorem passes_handAll (h : r.Aside d c) (i : Nat) (ends : List CouplerEnd) :
    r.Passes d c (r.handAll i ends) := by
  unfold handAll
  induction ends generalizing r with
  | nil => exact .refl h
  | cons e rest ih =>
    have hfirst := h.passes_note (.handed e i)
    exact hfirst.trans (ih hfirst.aside)

theorem passes_spawnProgram (h : r.Aside d c) {i : Nat} (hi : r.isLast i = false) {stage : Stage}
    {path : Path} (ht : stage.target = .program (some path))
    (hs : stage.Starts d.origin d.place r.session.machine) :
    r.Passes d c (r.spawnProgram i stage path).2 := by
  obtain ⟨hroute, htouch, hstreams⟩ := h.passes_descriptorsFor hi stage.redirections.merges
  unfold spawnProgram
  extract_lets ends
  generalize r.descriptorsFor i stage.redirections.merges = routed at hroute htouch hstreams
  obtain ⟨r₁, descriptors, streams⟩ := routed
  dsimp only at hroute htouch hstreams ⊢
  have hhand := hroute.trans (hroute.aside.passes_handAll i ends)
  generalize r₁.handAll i ends = r₂ at hhand
  split
  · exact hhand.trans (hhand.aside.passes_closeEnds ends)
  · split
    · have herr : r₂.errOutlet i ≠ .file c := by simp [errOutlet, hhand.isLast, hi]
      have hrefused := hhand.aside.passes_cannotStart herr stage ‹_›
      exact (hhand.trans hrefused).trans (hrefused.aside.passes_closeEnds ends)
    · next process hp =>
      have havoids := hs path ht r₂.session process hhand.session.machine hp
      have hspawn := hhand.aside.passes_onKernel
        (f := fun _ => (r₂.kernel.spawn process descriptors).2) (.one (.spawn _ havoids htouch))
      have hstart := hspawn.aside.passes_onLedger (f := fun l => l.start i r₂.kernel.nextPid) rfl
      have hclose := hstart.aside.passes_closeEnds ends
      have hlog :=
        hclose.aside.passes_log .debug ("started " ++ stage.command) (some r₂.kernel.nextPid)
      have hattach := hlog.aside.passes_attach hstreams
      exact hhand.trans (hspawn.trans (hstart.trans (hclose.trans (hlog.trans hattach))))

theorem passes_spawn (h : r.Aside d c) {i : Nat} (hi : r.isLast i = false) {stage : Stage}
    (hs : stage.Starts d.origin d.place r.session.machine) : r.Passes d c (r.spawn i stage).2 := by
  unfold spawn
  split
  · exact h.passes_closeEnds _
  · have hmissing := h.passes_notFound (i := i) (by simp [errOutlet, hi]) stage
    exact hmissing.trans (hmissing.aside.passes_closeEnds _)
  · next ht => exact h.passes_spawnProgram hi ht hs

/-- Starting the programs of stages before the last. -/
theorem passes_spawnAll (h : r.Aside d c) {indexed : List (Stage × Nat)}
    (hi : ∀ x ∈ indexed, r.isLast x.2 = false) (hs : ∀ x ∈ indexed,
      x.1.Starts d.origin d.place r.session.machine) : r.Passes d c (spawnAll indexed r).2 := by
  induction indexed generalizing r with
  | nil => exact .refl h
  | cons x rest ih =>
    have hfirst := h.passes_spawn (hi x List.mem_cons_self) (hs x List.mem_cons_self)
    unfold spawnAll
    split
    · next hr =>
      rw [hr] at hfirst
      refine hfirst.trans (ih hfirst.aside (fun y hy => ?_) fun y hy => ?_)
      · rw [hfirst.isLast]
        exact hi y (List.mem_cons_of_mem _ hy)
      · rw [hfirst.session.machine]
        exact hs y (List.mem_cons_of_mem _ hy)
    · exact hfirst

variable {capture : Builtin.Capture}

theorem passes_wrapEnd (h : r.Aside d c) (i : Nat) : r.Passes d c (r.wrapEnd i) := by
  refine ⟨⟨h.spools, fun outlet s ho hs => ?_, h.streams, h.queue⟩, .refl _, ?_, rfl, rfl, rfl⟩
  · obtain ⟨-, rfl⟩ | hold := Outlets.heldSink_setHeldSink hs
    · exact touches_endHandle r (.write i)
    · exact h.devices outlet s ho hold
  · exact Outlets.heldSink_setHeldSink_of_ne (by simp) _ _

theorem passes_closeNext (h : r.Aside d c) (i : Nat) : r.Passes d c (r.closeNext i) := by
  have hclose := h.passes_close (show Outlet.next ≠ .file c by simp)
  exact hclose.trans (hclose.aside.passes_onLedger (f := fun l => l.close (.write i)) rfl)

/-- Texts that are written to other outlets. -/
theorem passes_foldl_write (h : r.Aside d c) (i : Nat) {writes : List Builtin.Emission}
    (ho : ∀ e ∈ writes, r.outletFor i e.1 ≠ .file c) :
    r.Passes d c (writes.foldl (fun r e => r.write (r.outletFor i e.1) e.2) r) := by
  induction writes generalizing r with
  | nil => exact .refl h
  | cons e rest ih =>
    have hfirst := h.passes_write (ho e List.mem_cons_self) e.2
    refine hfirst.trans (ih hfirst.aside fun e' he' => ?_)
    rw [hfirst.outletFor]
    exact ho e' (List.mem_cons_of_mem _ he')

/-- A builtin changes the session by itself. -/
theorem passes_reply (h : r.Aside d c) {stage : Stage}
    (hs : stage.Edits d.origin d.place capture r.session.environment) {b : Builtin}
    (hb : stage.target = .builtin b) :
    r.Passes d c { r with session := (b.run capture r.session stage.args).session } := by
  obtain ⟨content, hk⟩ := h.spools
  obtain ⟨hai, hedits⟩ := hs b hb
  have hedited := Builtin.edited_run capture hai r.session stage.args
  exact h.passes_session (.of_edited (hedits r.session rfl hk.leads) hedited)

theorem runFor_eq_foldl {i : Nat} {b : Builtin} (hb : b ≠ .ai) {args : List String}
    (hok : ∀ f, (b.runFor (host i) capture args r).1 ≠ .error (.fault f)) :
    b.runFor (host i) capture args r = ((b.run capture r.session args).ending,
      (b.run capture r.session args).writes.foldl (fun r e => r.write (r.outletFor i e.1) e.2)
        { r with session := (b.run capture r.session args).session }) :=
  Builtin.runFor_eq_take (h := host i) (fun _ => rfl) hb hok

theorem passes_runFor (h : r.Aside d c) {i : Nat} (hi : r.isLast i = false) {stage : Stage}
    (hs : stage.Edits d.origin d.place capture r.session.environment) {b : Builtin}
    (hb : stage.target = .builtin b)
    (hok : ∀ f, (b.runFor (host i) capture stage.args r).1 ≠ .error (.fault f)) :
    r.Passes d c (b.runFor (host i) capture stage.args r).2 := by
  have hreply := h.passes_reply hs hb
  rw [runFor_eq_foldl (hs b hb).1 hok]
  refine hreply.trans (hreply.aside.passes_foldl_write i fun e _ => ?_)
  cases e.1 <;> simp [outletFor, outOutlet, errOutlet, hreply.isLast, hi]

theorem passes_callBuiltin (h : r.Aside d c) {i : Nat} (hi : r.isLast i = false) {stage : Stage}
    (hs : stage.Edits d.origin d.place capture r.session.environment) {b : Builtin}
    (hb : stage.target = .builtin b)
    (hok : ∀ f, (r.callBuiltin capture i stage b).1 ≠ .error (.fault f)) :
    r.Passes d c (r.callBuiltin capture i stage b).2 := by
  unfold callBuiltin at hok ⊢
  simp only [hi, Bool.false_eq_true, if_false, Builtin.runUntil_none] at hok ⊢
  have hwrap := h.passes_wrapEnd i
  have hlog := hwrap.aside.passes_log .debug ("builtin " ++ stage.command) none
  have hcalled := hlog.aside.passes_note (.called i)
  have hstart := hwrap.trans (hlog.trans hcalled)
  generalize ((r.wrapEnd i).log .debug ("builtin " ++ stage.command)).note (.called i) =
    r₁ at hok hstart ⊢
  have hi₁ : r₁.isLast i = false := (hstart.isLast i).trans hi
  have hran := hstart.aside.passes_runFor hi₁ (hstart.session.steady.environment ▸ hs) hb hok
  generalize b.runFor (host i) capture stage.args r₁ = ran at hran
  obtain ⟨ending, r₂⟩ := ran
  have hreturned := hran.aside.passes_note (.returned i ending)
  have hsofar := hstart.trans (hran.trans hreturned)
  dsimp only at hsofar ⊢
  generalize r₂.note (.returned i ending) = r₃ at hsofar
  have hi₃ : r₃.isLast i = false := (hsofar.isLast i).trans hi
  rw [hi₃]
  simp only [Bool.false_eq_true, if_false]
  have hclosed := hsofar.aside.passes_closeNext i
  have hend := hsofar.trans hclosed
  refine hend.trans (hclosed.aside.passes_flush ?_)
  simp [errOutlet, hend.isLast, hi]

/-- What a builtin comes to if the pipeline goes on. -/
theorem callBuiltin_ne_fault {i : Nat} {stage : Stage} {b : Builtin}
    (hn : (r.runBuiltin capture i stage b).1 = none) (f : Fault) :
    (r.callBuiltin capture i stage b).1 ≠ .error (.fault f) := by
  unfold runBuiltin at hn
  split at hn
  · simp_all
  · simp_all
  · cases hn

theorem passes_runBuiltin (h : r.Aside d c) {i : Nat} (hi : r.isLast i = false) {stage : Stage}
    (hs : stage.Edits d.origin d.place capture r.session.environment) {b : Builtin}
    (hb : stage.target = .builtin b) (hn : (r.runBuiltin capture i stage b).1 = none) :
      r.Passes d c (r.runBuiltin capture i stage b).2 := by
  have hcall := h.passes_callBuiltin hi hs hb (callBuiltin_ne_fault hn)
  unfold runBuiltin at hn ⊢
  split <;> next hr =>
    rw [hr] at hcall
    first
    | exact hcall.trans (hcall.aside.passes_onLedger (f := fun l => l.complete i _) rfl)
    | simp [hr] at hn

/-- Running the builtins of stages before the last. -/
theorem passes_runBuiltins (h : r.Aside d c) {indexed : List (Stage × Nat)}
    (hi : ∀ x ∈ indexed, r.isLast x.2 = false)
    (hs : ∀ x ∈ indexed, x.1.Edits d.origin d.place capture r.session.environment)
    (hn : (runBuiltins capture indexed r).1 = none) :
      r.Passes d c (runBuiltins capture indexed r).2 := by
  induction indexed generalizing r with
  | nil => exact .refl h
  | cons x rest ih =>
    have hi' := hi x List.mem_cons_self
    have hs' := hs x List.mem_cons_self
    unfold runBuiltins at hn ⊢
    split
    · next ht =>
      rw [ht] at hn
      exact ih h (fun y hy => hi y (List.mem_cons_of_mem _ hy)) (fun y hy =>
        hs y (List.mem_cons_of_mem _ hy)) hn
    · next b hb =>
      rw [hb] at hn
      dsimp only at hn
      cases hr : r.runBuiltin capture x.2 x.1 b with
      | mk halt r' =>
        cases halt with
        | some halt => simp [hr] at hn
        | none =>
          have hfirst := h.passes_runBuiltin hi' hs' hb (congrArg Prod.fst hr)
          rw [hr] at hfirst hn
          refine hfirst.trans (ih hfirst.aside (fun y hy => ?_) (fun y hy => ?_) hn)
          · rw [hfirst.isLast]
            exact hi y (List.mem_cons_of_mem _ hy)
          · rw [hfirst.session.steady.environment]
            exact hs y (List.mem_cons_of_mem _ hy)

section Waiting

/-- What the pump's readers read is not for the spool. -/
theorem passes_gather (h : r.Aside d c) : r.Passes d c r.gather := by
  have hrun :=
    h.passes_onKernel (f := fun k => k.runPatiently fun k => !isFed r.streams k) (.runPatiently ..)
  have hposts {pump : Pump Outlet} (hp : ∀ x ∈ pump.queue, x.1 ≠ .file c)
      {chunks : List (Outlet × Bytes)} (hc : ∀ x ∈ chunks, x.1 ≠ .file c) :
      ∀ x ∈ (chunks.foldl (fun pump x => pump.post x.1 x.2) pump).queue, x.1 ≠ .file c := by
    induction chunks generalizing pump with
    | nil => exact hp
    | cons x rest ih =>
      refine ih (fun y hy => ?_) fun y hy => hc y (List.mem_cons_of_mem _ hy)
      rcases List.mem_append.mp hy with hold | hnew
      · exact hp y hold
      · exact List.mem_singleton.mp hnew ▸ hc x List.mem_cons_self
  have hfinishes {pump : Pump Outlet} (hp : ∀ x ∈ pump.queue, x.1 ≠ .file c)
      {streams : List (Nat × Outlet)} (hs : ∀ x ∈ streams, x.2 ≠ .file c) :
      ∀ x ∈ (streams.foldl (fun pump s => pump.finish s.2) pump).queue, x.1 ≠ .file c := by
    induction streams generalizing pump with
    | nil => exact hp
    | cons x rest ih =>
      refine ih (fun y hy => ?_) fun y hy => hs y (List.mem_cons_of_mem _ hy)
      rcases List.mem_append.mp hy with hold | hnew
      · exact hp y hold
      · exact List.mem_singleton.mp hnew ▸ hs x List.mem_cons_self
  unfold gather
  extract_lets r₁
  change r.Passes d c r₁ at hrun
  rw [List.partition_eq_filter_filter]
  dsimp only
  have htake := hrun.aside.passes_onKernel
    (f := fun k => { k with
      spilled := r₁.kernel.spilled.filter fun spill => !(streamOf r₁.streams spill).isSome })
    (.one (.forget r₁.kernel fun _ _ => Scope.around_touches (by simp)))
  have hchunks : ∀ x ∈ Reader.chunks ((r₁.kernel.spilled.filter fun spill =>
      (streamOf r₁.streams spill).isSome).reverse.filterMap fun spill =>
        (streamOf r₁.streams spill).map fun s => (s.2, spill)), x.1 ≠ .file c := by
    refine Reader.forall_chunksFrom (P := fun outlet : Outlet => outlet ≠ .file c) (fun x hx => ?_)
      fun _ hw => absurd hw List.not_mem_nil
    obtain ⟨spill, -, hspill⟩ := List.mem_filterMap.mp hx
    obtain ⟨s, hs, rfl⟩ := Option.map_eq_some_iff.mp hspill
    unfold streamOf at hs
    split at hs
    · exact hrun.aside.streams s (List.mem_of_find?_eq_some hs)
    · cases hs
  refine ⟨⟨htake.aside.spools, htake.aside.devices, by simp, ?_⟩, hrun.session.trans htake.session,
    htake.sink.trans hrun.sink, htake.out.trans hrun.out, htake.err.trans hrun.err,
      htake.stages.trans hrun.stages⟩
  exact hfinishes (hposts hrun.aside.queue hchunks) hrun.aside.streams

theorem passes_drain (h : r.Aside d c) (budget : Option Nat) : r.Passes d c (r.drain budget).1 := by
  have hgather := h.passes_gather
  unfold drain
  extract_lets r₁ write
  change r.Passes d c r₁ at hgather
  have hall (items : List (Outlet × Option Bytes)) (hi : ∀ x ∈ items, x.1 ≠ .file c) (r₂ : Run)
      (h₂ : r₁.Passes d c r₂) : r₁.Passes d c { r₂ with
        wiring := { r₂.wiring with
          outlets := (Pump.writeAll write items (r₂.wiring.outlets, r₂.session)).1 }
        session := (Pump.writeAll write items (r₂.wiring.outlets, r₂.session)).2 } := by
    induction items generalizing r₂ with
    | nil => exact h₂
    | cons item rest ih =>
      have hrest : ∀ x ∈ rest, x.1 ≠ .file c := fun x hx => hi x (List.mem_cons_of_mem _ hx)
      obtain ⟨outlet, _ | chunk⟩ := item
      · exact ih hrest r₂ h₂
      · have hfirst := h₂.aside.passes_act (moving_writeBytes chunk) (hi _ List.mem_cons_self)
        exact ih hrest _ (h₂.trans hfirst)
  obtain ⟨taken, hqueue, hwritten, -⟩ :=
    r₁.pump.drain_takes write budget (r₁.wiring.outlets, r₁.session)
  generalize r₁.pump.drain write budget (r₁.wiring.outlets, r₁.session) = drained at hqueue hwritten
  obtain ⟨pump, ⟨outlets, session⟩, stop⟩ := drained
  dsimp only at hqueue hwritten ⊢
  have htaken :=
    hall taken (fun x hx => hgather.aside.queue x (hqueue ▸ List.mem_append_left _ hx)) r₁
    (.refl hgather.aside)
  rw [← hwritten] at htaken
  refine hgather.trans ⟨⟨htaken.aside.spools, htaken.aside.devices, htaken.aside.streams,
    fun x hx => ?_⟩, htaken.session, htaken.sink, htaken.out, htaken.err, htaken.stages⟩
  exact hgather.aside.queue x (hqueue ▸ List.mem_append_right _ hx)

theorem passes_awaitJob (h : r.Aside d c) (job : Job) : r.Passes d c (r.awaitJob job) := by
  have hawait := h.passes_onKernel (f := fun k => k.await job.pid) (.await _ trivial)
  exact hawait.trans (hawait.aside.passes_onLedger
    (f := fun l => l.finish job ((r.onKernel fun k => k.await job.pid).kernel.exitOf job.pid)) rfl)

theorem passes_collect (h : r.Aside d c) (jobs : List Job) (budget : Option Nat) :
    r.Passes d c (collect jobs budget r).1 := by
  induction jobs generalizing r budget with
  | nil => exact .refl h
  | cons job rest ih =>
    have hfirst := h.passes_awaitJob job
    rcases budget with _ | _ | n
    · exact hfirst.trans (ih hfirst.aside _)
    · exact .refl h
    · exact hfirst.trans (ih hfirst.aside _)

theorem passes_waitOnce (h : r.Aside d c) (budget : Option Nat) :
    r.Passes d c (waitOnce budget r).1 := by
  have hdrain := h.passes_drain budget
  unfold waitOnce
  split <;> next hd =>
    rw [hd] at hdrain
    first
    | exact hdrain.trans (hdrain.aside.passes_collect _ _)
    | exact hdrain

theorem passes_interruptPrograms (h : r.Aside d c) : r.Passes d c r.interruptPrograms := by
  have hsend (jobs : List Job) (k : Kernel) : Kernel.Moves (.around d) k
      (jobs.foldl (fun k job => k.send job.pid Signal.interrupt) k) := by
    induction jobs generalizing k with
    | nil => exact .refl
    | cons job rest ih => exact .head (.send k trivial _) (ih _)
  exact h.passes_onKernel ((Kernel.Moves.settle _).trans (hsend r.jobs _))

theorem passes_await (h : r.Aside d c) (interrupts : List Nat) :
    r.Passes d c (await interrupts r) := by
  have hinterrupts {r : Run} (h : r.Aside d c) (interrupts : List Nat) :
      r.Passes d c { r with session.interrupts := interrupts } :=
    h.passes_session ⟨.refl, ⟨rfl, rfl, rfl, rfl, rfl, .refl _⟩⟩
  induction interrupts generalizing r with
  | nil => exact h.passes_waitOnce none
  | cons n rest ih =>
    cases n with
    | zero =>
      have hsent := h.passes_interruptPrograms
      have hset := hinterrupts hsent.aside rest
      exact hsent.trans (hset.trans (ih hset.aside))
    | succ n =>
      have hwait := h.passes_waitOnce (some (n + 1))
      unfold await
      split
      · next hw =>
        rw [hw] at hwait
        have hsent := hwait.aside.passes_interruptPrograms
        have hset := hinterrupts hsent.aside rest
        exact hwait.trans (hsent.trans (hset.trans (ih hset.aside)))
      · next hw =>
        rw [hw] at hwait
        exact hwait.trans (hinterrupts hwait.aside _)

/-- Waiting for the programs. -/
theorem passes_join (h : r.Aside d c) : r.Passes d c r.join := by
  have hreap (jobs : List Job) (k : Kernel) : Kernel.Moves (.around d) k
      (jobs.foldl (fun k job => k.reap job.pid) k) := by
    induction jobs generalizing k with
    | nil => exact .refl
    | cons job rest ih => exact .head (.reap k trivial) (ih _)
  have hnote := h.passes_note (.waiting r.kernel.held)
  have hawait := hnote.aside.passes_await (r.note (.waiting r.kernel.held)).session.interrupts
  refine hnote.trans (hawait.trans (hawait.aside.passes_onKernel ?_))
  exact (hreap _ _).trans (Kernel.Moves.settle _)

theorem passes_closeAll (h : r.Aside d c) : r.Passes d c r.closeAll := h.passes_closeEnds r.openEnds

end Waiting

end Aside

end Run

end Pipeline

end CommandShell
