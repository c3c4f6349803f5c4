import CommandShell.Proofs.Builtin.Edits
import CommandShell.Proofs.Ledger.Frame
import CommandShell.Proofs.Pump
import CommandShell.Proofs.Scope.Outlets

/-!
# Running a pipeline within a scope

A run uses the handles that it has made and the programs that it has started, and nothing else of
the system. So it makes its moves within every scope that has these.

## Main statements

- `Run.Within`: a run that has nothing but what a scope allows.
- `Run.Makes`: what an operation does to such a run is within the scope, and leaves a run within it.
-/

namespace CommandShell

variable {σ : Scope}

/-- Numbers that have not been used up are within a scope. -/
structure Kernel.Fresh (σ : Scope) (k : Kernel) : Prop where
  file : ∀ n, k.nextNumber ≤ n → σ.touches (.file n)
  reader : ∀ n, k.nextNumber ≤ n → σ.touches (.reader n)
  writer : ∀ n, k.nextNumber ≤ n → σ.touches (.writer n)
  stream : ∀ n, k.nextNumber ≤ n → σ.touches (.tap (.stream n))
  strikes : ∀ pid, k.nextPid ≤ pid → σ.strikes pid
  reaps : ∀ pid, k.nextPid ≤ pid → σ.reaps pid

theorem Kernel.Fresh.advance {k k' : Kernel} (h : k.Fresh σ) (ha : Kernel.Advances k k') :
    k'.Fresh σ where
  file n hn := h.file n (Nat.le_trans ha.nextNumber hn)
  reader n hn := h.reader n (Nat.le_trans ha.nextNumber hn)
  writer n hn := h.writer n (Nat.le_trans ha.nextNumber hn)
  stream n hn := h.stream n (Nat.le_trans ha.nextNumber hn)
  strikes pid hp := h.strikes pid (Nat.le_trans ha.nextPid hp)
  reaps pid hp := h.reaps pid (Nat.le_trans ha.nextPid hp)

/-- Every program that a machine loads is within a scope. -/
def Machine.Within (σ : Scope) (m : Machine) : Prop :=
  ∀ files place text program, m.load files place text = .ok program →
    ∀ launch, σ.admits (program launch)

/-- A session that starts nothing but what a scope admits. A real terminal is within the scope, and
so is whatever may be done to the files. -/
structure Session.Within (σ : Scope) (s : Session) : Prop where
  machine : s.machine.Within σ
  null : σ.touches .null
  reader : ∀ pipe, σ.touches (.reader pipe)
  directory : σ.touches .directory
  free : σ.Free
  screen : s.direct = true → ∀ channel, σ.touches (.tap (.screen channel))
  fresh : s.world.toKernel.Fresh σ

namespace Session

/-- What no line changes in a session, and what its history may hold. -/
structure Steady (s s' : Session) : Prop where
  machine : s'.machine = s.machine
  direct : s'.direct = s.direct
  environment : s'.environment = s.environment
  settings : s'.settings = s.settings
  client : s'.client = s.client
  history : s.history.DrawsOn s'.history

namespace Steady

variable {s s' s'' : Session}

theorem refl (s : Session) : s.Steady s := ⟨rfl, rfl, rfl, rfl, rfl, .refl _⟩

theorem trans (h : s.Steady s') (g : s'.Steady s'') : s.Steady s'' :=
  ⟨g.machine.trans h.machine, g.direct.trans h.direct, g.environment.trans h.environment,
    g.settings.trans h.settings, g.client.trans h.client, h.history.trans g.history⟩

end Steady

/-- A session that has come from another one by moves, and runs the same programs. -/
structure Makes (σ : Scope) (s s' : Session) : Prop where
  moves : Kernel.Moves σ s.world.toKernel s'.world.toKernel
  steady : s.Steady s'

namespace Makes

variable {s s' s'' : Session}

theorem machine (h : Makes σ s s') : s'.machine = s.machine := h.steady.machine

theorem direct (h : Makes σ s s') : s'.direct = s.direct := h.steady.direct

theorem refl (s : Session) : Makes σ s s := ⟨.refl, .refl s⟩

theorem trans (h : Makes σ s s') (g : Makes σ s' s'') : Makes σ s s'' :=
  ⟨h.moves.trans g.moves, h.steady.trans g.steady⟩

theorem within (h : Makes σ s s') (hs : s.Within σ) : s'.Within σ where
  machine := h.machine ▸ hs.machine
  null := hs.null
  reader := hs.reader
  directory := hs.directory
  free := hs.free
  screen hd := hs.screen (h.direct ▸ hd)
  fresh := hs.fresh.advance h.moves.advances

theorem of_edited (ha : σ.alters s.world.files s'.world.files) (h : s.Edited s') :
    Makes σ s s' := by
  obtain ⟨files, hw⟩ := h.world
  refine ⟨?_, h.machine, h.direct, h.environment, h.settings, h.client, h.history⟩
  rw [hw] at ha ⊢
  exact .one (.files _ ha)

/-- What programs have written to a real terminal is taken from its taps. -/
theorem absorb (hs : s.Within σ) : Makes σ s s.absorb := by
  unfold Session.absorb
  split
  · next hd =>
    have hdirect : s.direct = true := by simp_all
    refine ⟨.one (.forget _ fun spill hkept => ?_), ⟨rfl, rfl, rfl, rfl, rfl, .refl _⟩⟩
    rcases htap : spill.tap with channel | n
    · exact hs.screen hdirect channel
    · simp [shownOf, htap] at hkept
  · exact refl s

theorem onKernel {f : Kernel → Kernel} (hf : Kernel.Moves σ s.world.toKernel (f s.world.toKernel)) :
    Makes σ s (s.onKernel f) := ⟨hf, ⟨rfl, rfl, rfl, rfl, rfl, .refl _⟩⟩

end Makes

end Session

/-- A way to run lines that stays within a scope. -/
def Builtin.CaptureWithin (σ : Scope) (capture : Builtin.Capture) : Prop :=
  ∀ line (s : Session), s.Within σ → s.Makes σ (capture line s).2

namespace Pipeline

@[simp] theorem Outlets.heldSink_setScreenSink (o : Outlets) (channel : Channel) (k : Sink Console)
    (outlet : Outlet) : (o.setScreenSink channel k).heldSink outlet = o.heldSink outlet := by
  cases channel <;> rfl

@[simp] theorem Outlets.screenSink_setHeldSink (o : Outlets) (outlet : Outlet) (k : HeldSink)
    (channel : Channel) : (o.setHeldSink outlet k).screenSink channel = o.screenSink channel := by
  rcases outlet with c | c | _ <;> try cases c
  all_goals cases channel <;> rfl

/-- The sink of an outlet is the one that has been set there, any other one is what it was. -/
theorem Outlets.heldSink_setHeldSink {o : Outlets} {outlet outlet' : Outlet} {k k' : HeldSink}
    (h : (o.setHeldSink outlet k).heldSink outlet' = some k') :
    (outlet' = outlet ∧ k' = k) ∨ o.heldSink outlet' = some k' := by
  rcases outlet with c | c | _ <;> rcases outlet' with d | d | _ <;> try cases c
  all_goals try cases d
  all_goals first
    | exact .inr h
    | exact .inl ⟨rfl, (Option.some.inj h).symm⟩

theorem Outlets.screenSink_setScreenSink {o : Outlets} {channel channel' : Channel}
    {k : Sink Console} : (o.setScreenSink channel k).screenSink channel' =
      if channel' = channel then k else o.screenSink channel' := by
  cases channel <;> cases channel' <;> rfl

/-- The sinks of a pipeline write to nothing but what a scope allows. -/
structure Outlets.Within (σ : Scope) (o : Outlets) : Prop where
  devices : ∀ outlet k, o.heldSink outlet = some k → σ.touches k.stream.device
  consoles : ∀ channel, (o.screenSink channel).stream.direct = true →
    σ.touches (.tap (.screen channel))

/-- What the shell holds for an outlet. -/
def Outlets.grippedAt (o : Outlets) (outlet : Outlet) : List Handle :=
  ((o.heldSink outlet).map Sink.gripped).getD []

/-- What the shell holds for the outlets when one of them has another sink. -/
theorem Outlets.grippedAt_setHeldSink {o : Outlets} {outlet : Outlet}
    (houtlet : ∀ channel, outlet ≠ .screen channel) (k : HeldSink) (outlet' : Outlet) :
    (o.setHeldSink outlet k).grippedAt outlet' =
      if outlet' = outlet then k.gripped else o.grippedAt outlet' := by
  rcases outlet with c | c | _ <;> rcases outlet' with d | d | _ <;> try cases c
  all_goals try cases d
  all_goals first
    | rfl
    | exact absurd rfl (houtlet _)

theorem Outlets.ne_screen {o : Outlets} {outlet : Outlet} {k : HeldSink}
    (hk : o.heldSink outlet = some k) (channel : Channel) : outlet ≠ .screen channel := by
  rintro rfl
  cases hk

/-- What an operation on sinks does to the sinks of a pipeline and to its session. -/
theorem Outlets.makes_act {f : SinkAction} (hf : f.Moving σ) (outlet : Outlet) {o : Outlets}
    {s : Session} (hs : s.Within σ) (ho : o.Within σ) :
    s.Makes σ (act f outlet o s).2 ∧ (act f outlet o s).1.Within σ ∧
      (¬ σ.grips → (act f outlet o s).1.grippedAt = o.grippedAt) := by
  have hheld (outlet : Outlet) (k : HeldSink) (hk : o.heldSink outlet = some k) :
      s.Makes σ ((s.onKernel fun _ => (f k s.world.toKernel).2).absorb) ∧
        (o.setHeldSink outlet (f k s.world.toKernel).1).Within σ ∧
        (¬ σ.grips → (o.setHeldSink outlet (f k s.world.toKernel).1).grippedAt = o.grippedAt) := by
    have htouch := ho.devices outlet k hk
    have hmade : s.Makes σ (s.onKernel fun _ => (f k s.world.toKernel).2) :=
      .onKernel (hf.moves k s.world.toKernel htouch)
    have hdevice := hf.device k s.world.toKernel htouch
    refine ⟨hmade.trans (.absorb (hmade.within hs)),
      ⟨fun outlet' k' hk' => ?_, fun channel hd => ?_⟩, fun hg => funext fun outlet' => ?_⟩
    · obtain ⟨-, rfl⟩ | hold := heldSink_setHeldSink hk'
      · exact hdevice.symm ▸ htouch
      · exact ho.devices outlet' k' hold
    · rw [screenSink_setHeldSink] at hd
      exact ho.consoles channel hd
    · obtain ⟨howned, hclosed⟩ := hf.marks hg k s.world.toKernel
      rw [grippedAt_setHeldSink (ne_screen hk)]
      split
      · next heq => rw [heq, grippedAt, hk, Sink.gripped, howned, hclosed, hdevice]; rfl
      · rfl
  unfold act
  split
  · next channel =>
    refine ⟨⟨.refl, ⟨rfl, rfl, rfl, rfl, rfl, .refl _⟩⟩, ⟨fun outlet' k' hk' => ?_, fun c hd => ?_⟩,
      fun _ => ?_⟩
    · exact ho.devices outlet' k' (by simpa using hk')
    · rw [screenSink_setScreenSink] at hd
      split at hd
      · next hc => exact hc ▸ ho.consoles channel (hf.console .. ▸ hd)
      · exact ho.consoles c hd
    · funext outlet'
      simp [grippedAt]
  · split
    · exact ⟨.refl s, ho, fun _ => rfl⟩
    · next hk => exact hheld _ _ hk

/-- A run that has nothing but what a scope allows. -/
structure Run.Within (σ : Scope) (r : Run) : Prop where
  session : r.session.Within σ
  reader : ∀ n ∈ r.couplers, σ.touches (.reader n)
  writer : ∀ n ∈ r.couplers, σ.touches (.writer n)
  outlets : r.wiring.outlets.Within σ
  streams : ∀ s ∈ r.streams, σ.touches (.tap (.stream s.1))
  jobs : ∀ job ∈ r.jobs, σ.strikes job.pid

/-- The ends that the pump has not seen are those that are queued and those of the streams that have
been attached to it. -/
def Run.Balanced (r : Run) : Prop := r.pump.active = r.pump.ends + r.streams.length

/-- A run that has come from another one within a scope. -/
structure Run.Makes (σ : Scope) (r r' : Run) : Prop where
  within : r'.Within σ
  session : r.session.Makes σ r'.session
  couplers : r'.couplers = r.couplers
  balanced : r.Balanced → r'.Balanced
  gripped : ¬ σ.grips → r'.wiring.outlets.grippedAt = r.wiring.outlets.grippedAt

namespace Run

variable {r r' r'' : Run}

theorem Makes.refl (h : r.Within σ) : r.Makes σ r := ⟨h, .refl _, rfl, id, fun _ => rfl⟩

theorem Makes.trans (h : r.Makes σ r') (g : r'.Makes σ r'') : r.Makes σ r'' :=
  ⟨g.within, h.session.trans g.session, g.couplers.trans h.couplers,
    fun hb => g.balanced (h.balanced hb), fun hg => (g.gripped hg).trans (h.gripped hg)⟩

namespace Within

/-- A run with another session. -/
theorem makes_session (h : r.Within σ) {s : Session} (hs : r.session.Makes σ s) :
    r.Makes σ { r with session := s } :=
  ⟨⟨hs.within h.session, h.reader, h.writer, h.outlets, h.streams, h.jobs⟩, hs, rfl, id,
    fun _ => rfl⟩

theorem makes_onLedger (h : r.Within σ) {f : Ledger → Ledger}
    (hf : ∀ job ∈ (f r.toLedger).jobs, σ.strikes job.pid) : r.Makes σ (r.onLedger f) :=
  ⟨⟨h.session, h.reader, h.writer, h.outlets, h.streams, hf⟩, .refl _, rfl, id,
    fun _ => rfl⟩

theorem makes_note (h : r.Within σ) (e : Event) : r.Makes σ (r.note e) := h.makes_onLedger h.jobs

theorem makes_complete (h : r.Within σ) (i : Nat) (status : Int) (pid : Option Nat) :
    r.Makes σ (r.complete i status pid) := h.makes_onLedger h.jobs

theorem makes_completePending (h : r.Within σ) (i : Nat) (status : Int) :
    r.Makes σ (r.completePending i status) := by
  refine h.makes_onLedger ?_
  unfold Ledger.completePending
  split <;> exact h.jobs

theorem makes_onKernel (h : r.Within σ) {f : Kernel → Kernel}
    (hf : Kernel.Moves σ r.kernel (f r.kernel)) : r.Makes σ (r.onKernel f) := by
  have hmade : r.session.Makes σ (r.session.onKernel f) := .onKernel hf
  exact h.makes_session (hmade.trans (.absorb (hmade.within h.session)))

theorem makes_act (h : r.Within σ) {f : SinkAction} (hf : f.Moving σ) (outlet : Outlet) :
    r.Makes σ (r.onOutlet (Outlets.act f outlet)) := by
  obtain ⟨hs, ho, hg⟩ := Outlets.makes_act hf outlet h.session h.outlets
  exact ⟨⟨hs.within h.session, h.reader, h.writer, ho, h.streams, h.jobs⟩, hs, rfl, id, hg⟩

theorem makes_write (h : r.Within σ) (outlet : Outlet) (text : String) :
    r.Makes σ (r.write outlet text) := h.makes_act (moving_write text) outlet

theorem makes_flush (h : r.Within σ) (outlet : Outlet) : r.Makes σ (r.flush outlet) :=
  h.makes_act moving_flush outlet

theorem makes_close (h : r.Within σ) (hg : σ.grips) (outlet : Outlet) :
    r.Makes σ (r.onOutlet (Outlets.close outlet)) := h.makes_act (moving_close hg) outlet

theorem makes_log (h : r.Within σ) (level : Log.Level) (message : String) (pid : Option Nat) :
    r.Makes σ (r.log level message pid) :=
  h.makes_session (.of_edited (h.session.free.alters _ _) (.note ..))

theorem touches_endHandle (h : r.Within σ) (e : CouplerEnd) : σ.touches (r.endHandle e) := by
  have hget (i : Nat) (f : Nat → Handle) (hf : ∀ n ∈ r.couplers, σ.touches (f n)) :
      σ.touches ((r.couplers[i]?.map f).getD .null) := by
    cases hi : r.couplers[i]? with
    | none => exact h.session.null
    | some n => exact hf n (List.mem_of_getElem? hi)
  cases e with
  | read i => exact hget i _ h.reader
  | write i => exact hget i _ h.writer

theorem makes_closeEnd (h : r.Within σ) (hg : σ.grips) (e : CouplerEnd) :
    r.Makes σ (r.closeEnd e) := by
  unfold closeEnd
  split
  · have hdrop := h.makes_onKernel (f := fun k => k.letGo (r.endHandle e))
      (.one (.letGo _ hg (h.touches_endHandle e)))
    exact hdrop.trans (hdrop.within.makes_onLedger hdrop.within.jobs)
  · exact .refl h

theorem makes_closeEnds (h : r.Within σ) (hg : σ.grips) (ends : List CouplerEnd) :
    r.Makes σ (r.closeEnds ends) := by
  unfold closeEnds
  induction ends generalizing r with
  | nil => exact .refl h
  | cons e rest ih =>
    have hfirst := h.makes_closeEnd hg e
    exact hfirst.trans (ih hfirst.within)

theorem makes_notFound (h : r.Within σ) (i : Nat) (stage : Stage) :
    r.Makes σ (r.notFound i stage) := by
  have hwrite := h.makes_write (r.errOutlet i) (stage.command ++ ": command not found\n")
  have hflush := hwrite.within.makes_flush (r.errOutlet i)
  have hlog := hflush.within.makes_log .warning ("command not found: " ++ stage.command) none
  have hmiss := hlog.within.makes_onLedger (f := fun l => l.miss i) hlog.within.jobs
  exact ((hwrite.trans hflush).trans hlog).trans hmiss

theorem makes_cannotStart (h : r.Within σ) (i : Nat) (stage : Stage) (e : StartError) :
    r.Makes σ (r.cannotStart i stage e) := by
  have hlog := h.makes_log .warning ("cannot start " ++ stage.command ++ ": " ++ e.message) none
  have hwrite :=
    hlog.within.makes_write (r.errOutlet i) (stage.command ++ ": " ++ e.error.text ++ "\n")
  have hflush := hwrite.within.makes_flush (r.errOutlet i)
  have hrefuse := hflush.within.makes_onLedger (f := fun l => l.refuse i) hflush.within.jobs
  exact ((hlog.trans hwrite).trans hflush).trans hrefuse

theorem makes_attach (h : r.Within σ) {streams : List (Nat × Outlet)}
    (hs : ∀ s ∈ streams, σ.touches (.tap (.stream s.1))) : r.Makes σ (r.attach streams) := by
  unfold attach
  induction streams generalizing r with
  | nil => exact .refl h
  | cons stream rest ih =>
    have hfirst : r.Makes σ { r with pump := r.pump.attach, streams := r.streams ++ [stream] } := by
      refine ⟨⟨h.session, h.reader, h.writer, h.outlets, fun s hmem => ?_, h.jobs⟩, .refl _, rfl,
        fun hb => ?_, fun _ => rfl⟩
      · rcases List.mem_append.mp hmem with hold | hnew
        · exact h.streams s hold
        · exact List.mem_singleton.mp hnew ▸ hs stream List.mem_cons_self
      · unfold Balanced at hb ⊢
        simp only [Pump.active_attach, Pump.ends_attach, List.length_append, List.length_singleton]
        omega
    exact hfirst.trans (ih hfirst.within fun s hmem => hs s (List.mem_cons_of_mem _ hmem))

/-- What a program is given for an outlet is within the scope. -/
theorem makes_routeTo (h : r.Within σ) (outlet : Outlet) :
    r.Makes σ (r.routeTo outlet).1 ∧ σ.touches (r.routeTo outlet).2.1 ∧
      ∀ s ∈ (r.routeTo outlet).2.2, σ.touches (.tap (.stream s.1)) := by
  have hflush := h.makes_flush outlet
  unfold routeTo
  generalize r.flush outlet = r₁ at hflush
  dsimp only
  split
  · next handle hh =>
    refine ⟨hflush, ?_, by simp⟩
    unfold Outlets.handle? at hh
    split at hh
    · next channel =>
      split at hh
      · next hd =>
        obtain rfl := Option.some.inj hh
        exact hflush.within.outlets.consoles channel hd
      · cases hh
    · obtain ⟨k, hk, hhandle⟩ := Option.bind_eq_some_iff.mp hh
      split at hhandle
      · obtain rfl := Option.some.inj hhandle
        exact hflush.within.outlets.devices _ k hk
      · cases hhandle
  · have hbump := hflush.within.makes_onKernel
      (f := fun k => { k with nextNumber := r₁.kernel.nextNumber + 1 }) (.one (.number r₁.kernel))
    have hfresh := hflush.within.session.fresh.stream r₁.kernel.nextNumber (Nat.le_refl _)
    exact ⟨hflush.trans hbump, hfresh, by simpa using hfresh⟩

/-- What a program is given for its descriptors is within the scope. -/
theorem touches_inputHandle (h : r.Within σ) (i : Nat) : σ.touches (r.inputHandle i) := by
  unfold inputHandle
  split
  · split
    · unfold Session.inputHandle
      cases r.session.input with
      | none => exact h.session.null
      | some pipe => exact h.session.reader pipe
    · exact h.session.null
  · exact h.touches_endHandle _

theorem makes_descriptorsFor (h : r.Within σ) (i : Nat) (merges : Bool) :
    r.Makes σ (r.descriptorsFor i merges).1 ∧
      (∀ d ∈ (r.descriptorsFor i merges).2.1, σ.touches d.2) ∧
      ∀ s ∈ (r.descriptorsFor i merges).2.2, σ.touches (.tap (.stream s.1)) := by
  have hout : r.Makes σ (if r.isLast i then r.routeTo r.wiring.out
      else (r, r.endHandle (.write i), [])).1 ∧
      σ.touches (if r.isLast i then r.routeTo r.wiring.out
        else (r, r.endHandle (.write i), [])).2.1 ∧
      ∀ s ∈ (if r.isLast i then r.routeTo r.wiring.out
        else (r, r.endHandle (.write i), [])).2.2, σ.touches (.tap (.stream s.1)) := by
    split
    · exact h.makes_routeTo r.wiring.out
    · exact ⟨.refl h, h.touches_endHandle (.write i), by simp⟩
  unfold descriptorsFor
  generalize (if r.isLast i then r.routeTo r.wiring.out else (r, r.endHandle (.write i), [])) =
    routed
    at hout ⊢
  obtain ⟨r₁, out, outStreams⟩ := routed
  obtain ⟨hmade, htouch, hstreams⟩ := hout
  dsimp only at hmade htouch hstreams ⊢
  split
  · refine ⟨hmade, ?_, by simpa using hstreams⟩
    simp only [List.mem_cons, List.not_mem_nil, or_false, forall_eq_or_imp, forall_eq]
    exact ⟨h.touches_inputHandle i, htouch, htouch⟩
  · obtain ⟨hmade', htouch', hstreams'⟩ := hmade.within.makes_routeTo (r₁.errOutlet i)
    refine ⟨hmade.trans hmade', ?_, fun s hs => ?_⟩
    · simp only [List.mem_cons, List.not_mem_nil, or_false, forall_eq_or_imp, forall_eq]
      exact ⟨h.touches_inputHandle i, htouch, htouch'⟩
    · exact (List.mem_append.mp hs).elim (hstreams s) (hstreams' s)

theorem makes_handAll (h : r.Within σ) (i : Nat) (ends : List CouplerEnd) :
    r.Makes σ (r.handAll i ends) := by
  unfold handAll
  induction ends generalizing r with
  | nil => exact .refl h
  | cons e rest ih =>
    have hfirst := h.makes_note (.handed e i)
    exact hfirst.trans (ih hfirst.within)

/-- A process that can be started is one of a program that the machine loads. -/
theorem admits_start {s : Session} (hs : s.Within σ) {arguments : List String} {executable : Path}
    {process : Process} (hp : start s arguments executable = .ok process) : σ.admits process := by
  have hload (load : String → Except Errno Program) (files : List String) (telling : Option Errno)
      (last : Errno) (program : Program) (hl : loadFirst load files telling last = .ok program) :
      ∃ file, load file = .ok program := by
    induction files generalizing telling last with
    | nil => cases hl
    | cons file rest ih =>
      unfold loadFirst at hl
      split at hl
      · next hfile => exact ⟨file, hfile.trans hl⟩
      · exact ih _ _ hl
  unfold start at hp
  split at hp
  · cases hp
  · dsimp only at hp
    split at hp
    · cases hp
    · split at hp
      · cases hp
      · next hl =>
        obtain ⟨file, hfile⟩ := hload _ _ _ _ _ hl
        cases hp
        exact hs.machine _ _ _ _ hfile _

theorem makes_spawnProgram (h : r.Within σ) (hg : σ.grips) (i : Nat) (stage : Stage) (path : Path) :
    r.Makes σ (r.spawnProgram i stage path).2 := by
  obtain ⟨hmade, htouch, hstreams⟩ := h.makes_descriptorsFor i stage.redirections.merges
  unfold spawnProgram
  extract_lets ends
  generalize r.descriptorsFor i stage.redirections.merges = routed at hmade htouch hstreams
  obtain ⟨r₁, descriptors, streams⟩ := routed
  dsimp only at hmade htouch hstreams ⊢
  have hhand := hmade.trans (hmade.within.makes_handAll i ends)
  generalize r₁.handAll i ends = r₂ at hhand
  split
  · exact hhand.trans (hhand.within.makes_closeEnds hg ends)
  · split
    · have hrefused := hhand.within.makes_cannotStart i stage ‹_›
      exact (hhand.trans hrefused).trans (hrefused.within.makes_closeEnds hg ends)
    · next process hp =>
      have hspawn := hhand.within.makes_onKernel
        (f := fun _ => (r₂.kernel.spawn process descriptors).2)
        (.one (.spawn _ (admits_start hhand.within.session hp) htouch))
      have hstart := hspawn.within.makes_onLedger (f := fun l => l.start i r₂.kernel.nextPid)
        fun job hj => by
          rcases List.mem_append.mp hj with hold | hnew
          · exact hspawn.within.jobs job hold
          · obtain rfl := List.mem_singleton.mp hnew
            exact hhand.within.session.fresh.strikes _ (Nat.le_refl _)
      have hclose := hstart.within.makes_closeEnds hg ends
      have hlog := hclose.within.makes_log .debug ("started " ++ stage.command)
        (some r₂.kernel.nextPid)
      have hattach := hlog.within.makes_attach hstreams
      exact hhand.trans (hspawn.trans (hstart.trans (hclose.trans (hlog.trans hattach))))

theorem makes_spawn (h : r.Within σ) (hg : σ.grips) (i : Nat) (stage : Stage) :
    r.Makes σ (r.spawn i stage).2 := by
  unfold spawn
  split
  · exact h.makes_closeEnds hg _
  · have hmissing := h.makes_notFound i stage
    exact hmissing.trans (hmissing.within.makes_closeEnds hg _)
  · exact h.makes_spawnProgram hg i stage _

theorem makes_spawnAll (h : r.Within σ) (hg : σ.grips) (indexed : List (Stage × Nat)) :
    r.Makes σ (spawnAll indexed r).2 := by
  induction indexed generalizing r with
  | nil => exact .refl h
  | cons stage rest ih =>
    have hfirst := h.makes_spawn hg stage.2 stage.1
    unfold spawnAll
    split
    · next hs =>
      rw [hs] at hfirst
      exact hfirst.trans (ih hfirst.within)
    · exact hfirst

end Within

namespace Within

variable {capture : Builtin.Capture}

/-- What a builtin of a stage does to its run by way of its host stays within the scope. -/
theorem keeps_makes (r : Run) (hc : Builtin.CaptureWithin σ capture) (i : Nat) :
    (host i).Keeps capture (r.Makes σ) where
  write channel text x hx := hx.trans (hx.within.makes_write (x.outletFor i channel) text)
  setSession _ _ hs hx :=
    hx.trans (hx.within.makes_session (.of_edited (hx.within.session.free.alters _ _) hs))
  send _ _ hx := hx.trans (hx.within.makes_session ⟨.refl, rfl, rfl, rfl, rfl, rfl, .refl _⟩)
  run line _ hx := hx.trans (hx.within.makes_session (hc line _ hx.within.session))

theorem makes_runUntil (h : r.Within σ) (hc : Builtin.CaptureWithin σ capture) (i : Nat)
    (b : Builtin) (args : List String) (stop : Option Nat) :
    r.Makes σ (b.runUntil (host i) capture args stop r).2 :=
  Builtin.runUntil_invariant (keeps_makes r hc i) b args stop (.refl h)

theorem makes_wrapEnd (h : r.Within σ) (hg : σ.grips) (i : Nat) : r.Makes σ (r.wrapEnd i) := by
  refine ⟨⟨h.session, h.reader, h.writer, ⟨fun outlet k hk => ?_, fun channel hd => ?_⟩, h.streams,
    h.jobs⟩, .refl _, rfl, id, fun hn => absurd hg hn⟩
  · obtain ⟨-, rfl⟩ | hold := Outlets.heldSink_setHeldSink hk
    · exact h.touches_endHandle (.write i)
    · exact h.outlets.devices outlet k hold
  · exact h.outlets.consoles channel (by simpa [wrapEnd] using hd)

theorem makes_closeNext (h : r.Within σ) (hg : σ.grips) (i : Nat) : r.Makes σ (r.closeNext i) := by
  have hclose := h.makes_close hg .next
  exact hclose.trans (hclose.within.makes_onLedger hclose.within.jobs)

theorem makes_callBuiltin (h : r.Within σ) (hg : σ.grips)
    (hc : Builtin.CaptureWithin σ capture) (i : Nat) (stage : Stage) (b : Builtin)
    (stops : Nat → Option Nat := fun _ => none) :
    r.Makes σ (r.callBuiltin capture i stage b stops).2 := by
  have hwrap : r.Makes σ (if r.isLast i then r else r.wrapEnd i) := by
    split
    · exact .refl h
    · exact h.makes_wrapEnd hg i
  unfold callBuiltin
  generalize (if r.isLast i then r else r.wrapEnd i) = r₁ at hwrap
  have hlog := hwrap.within.makes_log .debug ("builtin " ++ stage.command) none
  have hcalled := hlog.within.makes_note (.called i)
  have hran := hcalled.within.makes_runUntil hc i b stage.args (stops i)
  have hstart := hwrap.trans (hlog.trans (hcalled.trans hran))
  dsimp only
  generalize b.runUntil (host i) capture stage.args (stops i) _ = ran at hstart
  obtain ⟨ending, r₂⟩ := ran
  have hreturned := hstart.within.makes_note (.returned i ending)
  generalize r₂.note (.returned i ending) = r₃ at hreturned
  have hclosed : r₃.Makes σ (if r₃.isLast i then r₃.flush r₃.wiring.out else r₃.closeNext i) := by
    split
    · exact hreturned.within.makes_flush _
    · exact hreturned.within.makes_closeNext hg i
  exact hstart.trans (hreturned.trans (hclosed.trans (hclosed.within.makes_flush _)))

theorem makes_runBuiltin (h : r.Within σ) (hg : σ.grips)
    (hc : Builtin.CaptureWithin σ capture) (i : Nat) (stage : Stage) (b : Builtin)
    (stops : Nat → Option Nat := fun _ => none) :
    r.Makes σ (r.runBuiltin capture i stage b stops).2 := by
  have hcall := h.makes_callBuiltin hg hc i stage b stops
  unfold runBuiltin
  split <;> next hb =>
    rw [hb] at hcall
    first
    | exact hcall.trans (hcall.within.makes_complete _ _ _)
    | exact hcall

theorem makes_runBuiltins (h : r.Within σ) (hg : σ.grips) (hc : Builtin.CaptureWithin σ capture)
    (indexed : List (Stage × Nat)) (stops : Nat → Option Nat := fun _ => none) :
    r.Makes σ (runBuiltins capture indexed r stops).2 := by
  induction indexed generalizing r with
  | nil => exact .refl h
  | cons stage rest ih =>
    unfold runBuiltins
    split
    · exact ih h
    · next b _ =>
      have hfirst := h.makes_runBuiltin hg hc stage.2 stage.1 b stops
      split
      · next hb =>
        rw [hb] at hfirst
        exact hfirst.trans (ih hfirst.within)
      · exact hfirst

/-- When nobody writes to the streams any more, their ends are queued. -/
theorem balanced_gather (h : r.Balanced) : r.gather.Balanced := by
  unfold gather
  extract_lets r₁
  generalize r₁.kernel.spilled.partition _ = parts
  obtain ⟨mine, others⟩ := parts
  dsimp only
  generalize Reader.chunks _ = chunks
  obtain ⟨hactive, hends⟩ := Pump.posts_balanced chunks r₁.pump
  obtain ⟨hactive', hends'⟩ := Pump.finishes_balanced r₁.streams Prod.snd (chunks.foldl _ r₁.pump)
  unfold Balanced
  refine hactive'.trans (hactive.trans ?_)
  rw [hends] at hends'
  exact h.trans hends'.symm

theorem makes_gather (h : r.Within σ) : r.Makes σ r.gather := by
  have hrun := h.makes_onKernel (f := fun k => k.runPatiently fun k => !isFed r.streams k)
    (.runPatiently ..)
  have hbalanced : r.Balanced → r.gather.Balanced := balanced_gather
  unfold gather at hbalanced ⊢
  extract_lets r₁ at hbalanced
  extract_lets
  change r.Makes σ r₁ at hrun
  have hstreams : r₁.streams = r.streams := rfl
  rw [List.partition_eq_filter_filter] at hbalanced ⊢
  dsimp only at hbalanced ⊢
  have htake := hrun.within.makes_onKernel
    (f := fun k => { k with
      spilled := r₁.kernel.spilled.filter fun spill => !(streamOf r₁.streams spill).isSome })
    (.one (.forget r₁.kernel fun spill hkept => ?_))
  · have hwithin := htake.within
    exact ⟨⟨hwithin.session, hwithin.reader, hwithin.writer,
      hwithin.outlets, by simp, hwithin.jobs⟩,
      hrun.session.trans htake.session, rfl, hbalanced, fun _ => rfl⟩
  · have hsome : (streamOf r₁.streams spill).isSome := by simpa using hkept
    unfold streamOf at hsome
    split at hsome
    · next n htap =>
      obtain ⟨s, hs⟩ := Option.isSome_iff_exists.mp hsome
      have hn : s.1 = n := by simpa using List.find?_some hs
      rw [htap, ← hn]
      exact h.streams s (hstreams ▸ List.mem_of_find?_eq_some hs)
    · cases hsome

theorem makes_drain (h : r.Within σ) (budget : Option Nat) : r.Makes σ (r.drain budget).1 := by
  have hgather := h.makes_gather
  unfold drain
  extract_lets r₁ write
  change r.Makes σ r₁ at hgather
  let P (x : Outlets × Session) : Prop := x.1.Within σ ∧ r₁.session.Makes σ x.2 ∧
    (¬ σ.grips → x.1.grippedAt = r₁.wiring.outlets.grippedAt)
  have hwrite : ∀ (outlet : Outlet) (chunk : Bytes) (x : Outlets × Session),
      P x → P (write outlet chunk x) := by
    intro outlet chunk x ⟨ho, hs, hg⟩
    obtain ⟨hs', ho', hg'⟩ := Outlets.makes_act (moving_writeBytes chunk) outlet
      (hs.within hgather.within.session) ho
    exact ⟨ho', hs.trans hs', fun hn => (hg' hn).trans (hg hn)⟩
  obtain ⟨ho, hs, hg⟩ := Pump.drain_invariant hwrite r₁.pump budget
    (x := (r₁.wiring.outlets, r₁.session)) ⟨hgather.within.outlets, .refl r₁.session, fun _ => rfl⟩
  refine hgather.trans ⟨⟨hs.within hgather.within.session, hgather.within.reader,
    hgather.within.writer, ho, hgather.within.streams, hgather.within.jobs⟩, hs, rfl, ?_, hg⟩
  intro hb
  exact (Pump.drain_balanced write hb budget (r₁.wiring.outlets, r₁.session)).1

theorem makes_awaitJob (h : r.Within σ) {job : Job} (hj : job ∈ r.jobs) :
    r.Makes σ (r.awaitJob job) := by
  have hawait := h.makes_onKernel (f := fun k => k.await job.pid) (.await _ (h.jobs job hj))
  exact hawait.trans (hawait.within.makes_onLedger
    (f := fun l => l.finish job ((r.onKernel fun k => k.await job.pid).kernel.exitOf job.pid))
    hawait.within.jobs)

theorem makes_collect (h : r.Within σ) {jobs : List Job} (hj : ∀ job ∈ jobs, job ∈ r.jobs)
    (budget : Option Nat) : r.Makes σ (collect jobs budget r).1 := by
  induction jobs generalizing r budget with
  | nil => exact .refl h
  | cons job rest ih =>
    have hfirst := h.makes_awaitJob (hj job List.mem_cons_self)
    have hrest : ∀ j ∈ rest, j ∈ (r.awaitJob job).jobs := fun j hmem =>
      hj j (List.mem_cons_of_mem _ hmem)
    rcases budget with _ | _ | n
    · exact hfirst.trans (ih hfirst.within hrest _)
    · exact .refl h
    · exact hfirst.trans (ih hfirst.within hrest _)

theorem makes_waitOnce (h : r.Within σ) (budget : Option Nat) :
    r.Makes σ (waitOnce budget r).1 := by
  have hdrain := h.makes_drain budget
  unfold waitOnce
  split <;> next hd =>
    rw [hd] at hdrain
    first
    | exact hdrain.trans (hdrain.within.makes_collect (fun _ hj => hj) _)
    | exact hdrain

theorem makes_interruptPrograms (h : r.Within σ) : r.Makes σ r.interruptPrograms := by
  have hsend (jobs : List Job) (hj : ∀ job ∈ jobs, job ∈ r.jobs) (k : Kernel) :
      Kernel.Moves σ k (jobs.foldl (fun k job => k.send job.pid Signal.interrupt) k) := by
    induction jobs generalizing k with
    | nil => exact .refl
    | cons job rest ih =>
      have hstrike := h.jobs job (hj job List.mem_cons_self)
      exact .head (.send k hstrike _) (ih (fun j hmem => hj j (List.mem_cons_of_mem _ hmem)) _)
  exact h.makes_onKernel ((Kernel.Moves.settle _).trans (hsend r.jobs (fun _ hj => hj) _))

theorem makes_await (h : r.Within σ) (interrupts : List Nat) : r.Makes σ (await interrupts r) := by
  have hinterrupts (r : Run) (h : r.Within σ) (interrupts : List Nat) :
      r.Makes σ { r with session.interrupts := interrupts } :=
    h.makes_session ⟨.refl, ⟨rfl, rfl, rfl, rfl, rfl, .refl _⟩⟩
  induction interrupts generalizing r with
  | nil => exact h.makes_waitOnce none
  | cons n rest ih =>
    cases n with
    | zero =>
      have hsent := h.makes_interruptPrograms
      have hset := hinterrupts _ hsent.within rest
      exact hsent.trans (hset.trans (ih hset.within))
    | succ n =>
      have hwait := h.makes_waitOnce (some (n + 1))
      unfold await
      split
      · next hw =>
        rw [hw] at hwait
        have hsent := hwait.within.makes_interruptPrograms
        have hset := hinterrupts _ hsent.within rest
        exact hwait.trans (hsent.trans (hset.trans (ih hset.within)))
      · next hw =>
        rw [hw] at hwait
        exact hwait.trans (hinterrupts _ hwait.within _)

end Within

end Run

end Pipeline

end CommandShell
