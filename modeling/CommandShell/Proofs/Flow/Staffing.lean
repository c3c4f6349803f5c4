import CommandShell.Proofs.Flow.Launching
import CommandShell.Proofs.Flow.Writing

/-!
# The last stage of a chain

The program of the last stage writes where the stage is redirected to: to the terminal, if it is a
real one, to a stream that the shell reads from, or to a file. If there is no such program, the
shell says so.

## Main statements

- `Pipeline.Run.Says`: a run in which the shell has said something for the last stage.
- `Pipeline.Run.Staffed`: a run all of whose programs have been started.
- `Pipeline.Run.Starting.spawn_program`, `Pipeline.Run.Starting.spawn_other`: the last stage is
  dealt with.
-/

namespace CommandShell

namespace Kernel

/-- A system in which nothing has run, while the shell has done something. -/
structure Stays (k k' : Kernel) : Prop where
  tasks : k'.tasks = k.tasks
  spilled : k'.spilled = k.spilled
  patience : k'.patience = k.patience
  nextPid : k'.nextPid = k.nextPid
  nextNumber : k.nextNumber ≤ k'.nextNumber
  takes : ∀ x, k.Takes x → k'.Takes x
  pipes : ∀ n, k.pipeContent n = ByteArray.empty → k'.pipeContent n = ByteArray.empty
  still : k.Still k'

variable {k k' k'' : Kernel}

theorem Stays.trans (h : k.Stays k') (g : k'.Stays k'') : k.Stays k'' :=
  ⟨g.tasks.trans h.tasks, g.spilled.trans h.spilled, g.patience.trans h.patience,
    g.nextPid.trans h.nextPid,
    Nat.le_trans h.nextNumber g.nextNumber, fun x hx => g.takes x (h.takes x hx), fun n hn =>
      g.pipes n (h.pipes n hn),
    h.still.trans g.still⟩

theorem Idles.stays (h : k.Idles k') : k.Stays k' :=
  ⟨h.tasks, h.spilled, h.patience, h.nextPid, h.nextNumber, h.takes, h.pipes, h.still⟩

theorem Jots.stays (h : k.Jots k') : k.Stays k' := by
  refine ⟨h.tasks, h.spilled, h.patience, h.nextPid, Nat.le_of_eq h.nextNumber.symm, h.takes,
    fun n hn => ?_, h.still⟩
  unfold pipeContent at hn ⊢
  rw [h.pipes]
  exact hn

end Kernel

namespace Pipeline

namespace Run

variable {r r' r'' r₀ r₁ : Run} {i n : Nat} {stage : Stage} {said said' : Bytes}

/-- A run in which the shell has said something, of which the terminal shows so much for the
output. -/
structure Says (said : Bytes) (r r' : Run) : Prop where
  beside : r.session.Beside r'.session
  shown : r'.session.screen.bytesOn .out = r.session.screen.bytesOn .out ++ said
  kernel : r.kernel.Stays r'.kernel
  wiring : r'.wiring = r.wiring
  couplers : r'.couplers = r.couplers
  pump : r'.pump = r.pump
  streams : r'.streams = r.streams
  stages : r'.stages = r.stages
  jobs : r'.jobs = r.jobs

theorem Prepares.utters (h : r.Prepares r') : r.Says [] r' :=
  ⟨h.beside, by rw [h.shown,
    List.append_nil], h.kernel.stays, h.wiring, h.couplers, h.pump, h.streams, h.stages, h.jobs⟩

namespace Says

theorem trans (h : r.Says said r') (g : r'.Says said' r'') : r.Says (said ++ said') r'' :=
  ⟨h.beside.trans g.beside, by rw [g.shown, h.shown, List.append_assoc], h.kernel.trans g.kernel,
    g.wiring.trans h.wiring, g.couplers.trans h.couplers, g.pump.trans h.pump,
      g.streams.trans h.streams,
    g.stages.trans h.stages, g.jobs.trans h.jobs⟩

theorem prepares (h : r.Says said r') (g : r'.Prepares r'') : r.Says said r'' := by
  have hall := h.trans g.utters
  rwa [List.append_nil] at hall

theorem fresh (h : r.Says said r') (hf : r.Fresh) : r'.Fresh where
  spilled := h.kernel.spilled.trans hf.spilled
  screens c := by rw [h.wiring, h.beside.direct, hf.screens]
  files c sink hs := by
    obtain ⟨x, hx, htakes⟩ := hf.files c sink (h.wiring ▸ hs)
    exact ⟨x, hx, h.kernel.takes x htakes⟩
  next := by rw [h.wiring, hf.next]

end Says

theorem Fresh.poised (hf : r.Fresh) : r.wiring.outlets.Poised (fun _ => False) r.session where
  screens := hf.screens
  files c sink hs := by
    obtain ⟨h, rfl, htakes⟩ := hf.files c sink hs
    exact ⟨h, .ofHandle h, htakes, fun _ => rfl⟩

/-- What is written to the file of a sink that is flushed at once. -/
theorem Fresh.voice_file (hf : r.Fresh) {c : Channel} {h : Handle}
    (hs : r.wiring.outlets.heldSink (.file c) = some (.ofHandle h)) (ht : r.kernel.Takes h)
    (text : String) : r.Says [] ((r.write (.file c) text).flush (.file c)) := by
  obtain ⟨hwritten, hjots⟩ := (Sink.Jotting.ofHandle h).write ht text
  obtain ⟨hflushed, hjots'⟩ := hwritten.flush (hjots.takes h ht)
  let written := (Sink.ofHandle h).write text r.kernel
  let flushed := written.1.flush written.2
  have habsorb (k : Kernel) (hk : k.spilled = []) :
      (r.session.onKernel fun _ => k).absorb = r.session.onKernel fun _ => k :=
    Session.absorb_of_spilled_nil hk
  have hwrite : Outlets.write text (.file c) r.wiring.outlets r.session =
      (r.wiring.outlets.setHeldSink (.file c) written.1, r.session.onKernel fun _ =>
        written.2) := by
    unfold Outlets.write Outlets.act
    simp only [hs]
    rw [← habsorb written.2 (hjots.spilled.trans hf.spilled)]
    rfl
  have hflush : Outlets.flush (.file c) (r.wiring.outlets.setHeldSink (.file c) written.1)
      (r.session.onKernel fun _ => written.2) =
        (r.wiring.outlets, r.session.onKernel fun _ => flushed.2) := by
    unfold Outlets.flush Outlets.act
    simp only [Outlets.heldSink_setHeldSink_self]
    refine Prod.ext ?_ (habsorb flushed.2 (hjots'.spilled.trans (hjots.spilled.trans hf.spilled)))
    have hback : flushed.1 = .ofHandle h := hflushed
    have hset : (r.wiring.outlets.setHeldSink (.file c) written.1).setHeldSink (.file c) flushed.1 =
        r.wiring.outlets.setHeldSink (.file c) flushed.1 := by cases c <;> rfl
    exact hset.trans (hback ▸ Outlets.setHeldSink_heldSink hs)
  have hrun : (r.write (.file c) text).flush (.file c) =
      { r with session := r.session.onKernel fun _ => flushed.2 } := by
    unfold Run.write Run.flush Run.onOutlet
    rw [hwrite]
    dsimp only
    rw [hflush]
  have hboth := hjots.trans hjots'
  rw [hrun]
  have hbeside : r.session.Beside (r.session.onKernel fun _ => flushed.2) := .onKernel _ hboth.still
  exact ⟨hbeside, (List.append_nil _).symm, hboth.stays, rfl, rfl, rfl, rfl, rfl, rfl⟩

/-- A text is shown for a channel. -/
theorem Fresh.voice_screen (hf : r.Fresh) (c : Channel) (text : String) :
    r.Says (if c = .out then Utf8.encode text else [])
      ((r.write (.screen c) text).flush (.screen c)) := by
  have hwrite : r.write (.screen c) text = { r with session := r.session.display c text } := by
    unfold Run.write Run.onOutlet
    rw [hf.poised.write_screen]
  have hspoken : r.Says (if c = .out then Utf8.encode text else []) (r.write (.screen c) text) := by
    rw [hwrite]
    refine ⟨.shown .., ?_, (Kernel.Idles.refl _).stays, rfl, rfl, rfl, rfl, rfl, rfl⟩
    simp [Session.display, Screen.bytesOn_showText]
  rwa [(hspoken.fresh hf).flush_eq]

/-- A text is written to an outlet of the last stage. -/
theorem Fresh.voice (hf : r.Fresh) {outlet : Outlet} (hn : outlet ≠ .next) (text : String) :
    r.Says (if outlet = .screen .out then Utf8.encode text else [])
      ((r.write outlet text).flush outlet) := by
  cases outlet with
  | next => exact absurd rfl hn
  | screen c => simpa only [Outlet.screen.injEq] using hf.voice_screen c text
  | file c =>
    rw [if_neg (by simp)]
    cases hs : r.wiring.outlets.heldSink (.file c) with
    | none =>
      have hact (f : SinkAction) (o : Outlets) (s : Session) (ho : o.heldSink (.file c) = none) :
          Outlets.act f (.file c) o s = (o, s) := by
        unfold Outlets.act
        simp only [ho]
      have hrun : (r.write (.file c) text).flush (.file c) = r := by
        unfold Run.write Run.flush Run.onOutlet Outlets.write Outlets.flush
        rw [hact _ _ _ hs]
        dsimp only
        rw [hact _ _ _ hs]
      rw [hrun]
      exact (Prepares.refl r).utters
    | some sink =>
      obtain ⟨h, rfl, ht⟩ := hf.files c sink hs
      exact hf.voice_file hs ht text

/-- The command of the last stage is missing. -/
theorem Fresh.says_notFound (hf : r.Fresh) (hn : r.errOutlet i ≠ .next) (stage : Stage) :
    r.Says (if r.errOutlet i = .screen .out then Utf8.encode (missingText stage) else [])
      (r.notFound i stage) :=
  (hf.voice hn (missingText stage)).prepares
    ((Prepares.log _ .warning ("command not found: " ++ stage.command) none).trans
    (.onLedger _ (f := fun l => l.miss i) rfl rfl))

/-- The program of the last stage cannot be started. -/
theorem Fresh.says_cannotStart (hf : r.Fresh) (hn : r.errOutlet i ≠ .next) (stage : Stage)
    (e : StartError) :
    r.Says (if r.errOutlet i = .screen .out then Utf8.encode (refusedText stage e) else [])
      (r.cannotStart i stage e) := by
  have hlog := Prepares.log r .warning ("cannot start " ++ stage.command ++ ": " ++ e.message) none
  exact (hlog.utters.trans ((hlog.fresh hf).voice hn (refusedText stage e))).prepares
    (.onLedger _ (f := fun l => l.refuse i) rfl rfl)

/-- Streams that the shell reads from lead to the terminal; the one that a chain ends in, if it
does, leads to the output, and no other one does. -/
structure Taps (p : Port) (streams : List (Nat × Outlet)) : Prop where
  screen : ∀ x ∈ streams, ∃ c, x.2 = .screen c
  out : ∀ x ∈ streams, x.2 = .screen .out ↔ p = .tap (.stream x.1)
  read : ∀ n, p = .tap (.stream n) → ∃ x ∈ streams, x.1 = n

/-- The program of the last stage of a run writes to a port. -/
def EndsAt (r : Run) (p : Port) : Prop :=
  (r.wiring.out = .screen .out ∧
    p = if r.session.direct = true then .tap (.screen .out)
      else .tap (.stream r.kernel.nextNumber)) ∨
  r.wiring.out = .file .out ∧ (∀ t, p ≠ .tap t) ∧
    r.wiring.outlets.heldSink (.file .out) = some (.ofHandle p.handle)

/-- The errors of the last stage go to the terminal, or to a file of their own. -/
def ErrsApart (r : Run) (p : Port) : Prop :=
  r.wiring.err = .screen .err ∨ r.wiring.err = .file .err ∧ ∃ h,
    r.wiring.outlets.heldSink (.file .err) = some (.ofHandle h) ∧ (∀ t, h ≠ .tap t) ∧
      (h = p.handle → p = .nowhere)

section Routes

variable {p : Port}

theorem handle_ne_tap (hp : ∀ t, p ≠ .tap t) (t : Tap) : p.handle ≠ .tap t := by
  cases p with
  | tap t' => exact absurd rfl (hp t')
  | file | nowhere => exact nofun

/-- Nothing that other programs write their errors to leads to where the last one writes. -/
theorem EndsAt.ne_handle (hp : r.EndsAt p) {x : Handle} (hx : r.kernel.Mutters x) :
    x ≠ p.handle := by
  obtain ⟨-, rfl⟩ | ⟨-, htap, -⟩ := hp
  · split <;> rintro rfl <;> obtain hscreen | ⟨n, heq, hlt⟩ := hx
    · cases hscreen
    · cases heq
    · cases hscreen
    · obtain rfl : r.kernel.nextNumber = n := by simpa [Port.handle] using heq
      exact absurd hlt (Nat.lt_irrefl _)
  · rintro rfl
    obtain hscreen | ⟨n, heq, -⟩ := hx
    · exact handle_ne_tap htap _ hscreen
    · exact handle_ne_tap htap _ heq

/-- What the program of the last stage is given to write to. -/
theorem Fresh.routeTo_out (hf : r.Fresh) (hp : r.EndsAt p) : ∃ r₁ streams,
    r.routeTo r.wiring.out = (r₁, p.handle, streams) ∧ r.Prepares r₁ ∧ r₁.kernel.Takes p.handle ∧
      Taps p streams ∧ ∀ n, p = .tap (.stream n) → n < r₁.kernel.nextNumber := by
  obtain ⟨hout, hport⟩ | ⟨hout, htap, hs⟩ := hp
  · obtain ⟨hprep, ⟨hd, hto⟩ | ⟨hd, hto, hlt⟩⟩ := hf.routeTo_screen .out <;> rw [hd] at hport <;>
      simp only [Bool.false_eq_true, if_true, if_false] at hport <;> subst hport
    · refine ⟨_, [], ?_, hprep, trivial, ⟨by simp, by simp, nofun⟩, nofun⟩
      rw [hout]
      exact Prod.ext rfl hto
    · refine ⟨_, [(r.kernel.nextNumber, .screen .out)], ?_, hprep, trivial,
        ⟨by simp, by simp, fun n hn => ?_⟩, fun n hn => ?_⟩
      · rw [hout]
        exact Prod.ext rfl hto
      · exact ⟨_, List.mem_singleton_self _, by simpa using hn⟩
      · obtain rfl : r.kernel.nextNumber = n := by simpa using hn
        exact hlt
  · refine ⟨r, [], ?_, .refl r, ?_, ⟨by simp, by simp, fun n hn => absurd hn (htap _)⟩, fun n hn =>
      absurd hn (htap _)⟩
    · rw [hout]
      exact hf.routeTo_file hs
    · obtain ⟨h, hh, htakes⟩ := hf.files .out _ hs
      obtain rfl : p.handle = h := by simpa [Sink.ofHandle] using hh
      exact htakes

/-- What the program of the last stage is given to write its errors to. -/
theorem Fresh.routeTo_errs (hf : r.Fresh) (he : r.ErrsApart p) (hp : p ≠ .tap (.screen .err))
    (hn : ∀ n, p = .tap (.stream n) → n < r.kernel.nextNumber) : ∃ r₁ err streams,
    r.routeTo r.wiring.err = (r₁, err, streams) ∧ r.Prepares r₁ ∧ r₁.kernel.Takes err ∧
      (err = p.handle → p = .nowhere) ∧ ∀ x ∈ streams, x.2 = .screen .err ∧
        p ≠ .tap (.stream x.1) := by
  have hhandle (t : Tap) (heq : .tap t = p.handle) : p = .tap t := by
    cases p with
    | tap t' => exact congrArg Port.tap (Handle.tap.inj heq).symm
    | file | nowhere => cases heq
  obtain herr | ⟨herr, h, hs, -, happart⟩ := he
  · obtain ⟨hprep, ⟨-, hto⟩ | ⟨-, hto, -⟩⟩ := hf.routeTo_screen .err
    · refine ⟨_, _, [], ?_, hprep, ?_, fun heq => absurd (hhandle _ heq) hp, by simp⟩
      · rw [herr]
        exact Prod.ext rfl hto
      · trivial
    · have hnew (hstream : p = .tap (.stream r.kernel.nextNumber)) : False :=
        Nat.lt_irrefl _ (hn _ hstream)
      refine ⟨_, _, [(r.kernel.nextNumber, .screen .err)], ?_, hprep, ?_, fun heq =>
        (hnew (hhandle _ heq)).elim, by simpa using hnew⟩
      · rw [herr]
        exact Prod.ext rfl hto
      · trivial
  · obtain ⟨h', hh, htakes⟩ := hf.files .err _ hs
    obtain rfl : h = h' := by simpa [Sink.ofHandle] using hh
    refine ⟨r, h, [], ?_, .refl r, htakes, happart, by simp⟩
    rw [herr]
    exact hf.routeTo_file hs

/-- What the program of the last stage is given. -/
theorem Fresh.descriptorsFor_last (hf : r.Fresh) (hi : r.isLast i = true) (hp : r.EndsAt p)
    {merges : Bool} (he : merges = false → r.ErrsApart p) :
      ∃ r₁ err streams, r.descriptorsFor i merges =
        (r₁, [(0, r.inputHandle i), (1, p.handle), (2, err)], streams) ∧
      r.Prepares r₁ ∧ r₁.kernel.Takes p.handle ∧ r₁.kernel.Takes err ∧
      (merges = true → err = p.handle) ∧ (err = p.handle → merges = true ∨ p = .nowhere) ∧
        Taps p streams := by
  obtain ⟨r₁, outStreams, hout, hprep, hport, htaps, hnumber⟩ := hf.routeTo_out hp
  have hi₁ : r₁.isLast i = true := (hprep.isLast i).trans hi
  unfold descriptorsFor
  cases merges with
  | true =>
    simp only [hi, hout, hi₁, Bool.and_self, if_true, List.append_nil]
    exact ⟨r₁, p.handle, outStreams, rfl, hprep, hport, hport, fun _ => rfl, fun _ =>
      .inl trivial, htaps⟩
  | false =>
    have hscreen : p ≠ .tap (.screen .err) := by
      obtain ⟨-, rfl⟩ | ⟨-, htap, -⟩ := hp
      · split <;> simp
      · exact htap _
    have he₁ : r₁.ErrsApart p := by
      unfold ErrsApart
      rw [hprep.wiring]
      exact he rfl
    obtain ⟨r₂, err, errStreams, herr, hprep₂, herrTakes, happart, herrTaps⟩ :=
      (hprep.fresh hf).routeTo_errs he₁ hscreen hnumber
    have hlast₁ : r₁.errOutlet i = r₁.wiring.err := by simp [errOutlet, hi₁]
    simp only [hi, hout, Bool.and_false, if_true, Bool.false_eq_true, if_false, hlast₁, herr]
    refine ⟨r₂, err, outStreams ++ errStreams, rfl, hprep.trans hprep₂, hprep₂.kernel.takes _ hport,
      herrTakes, by simp, fun heq => .inr (happart heq), ⟨fun x hx => ?_, fun x hx => ?_,
        fun n hn => ?_⟩⟩
    · rcases List.mem_append.mp hx with hx | hx
      · exact htaps.screen x hx
      · exact ⟨.err, (herrTaps x hx).1⟩
    · rcases List.mem_append.mp hx with hx | hx
      · exact htaps.out x hx
      · exact iff_of_false (by simp [(herrTaps x hx).1]) (herrTaps x hx).2
    · obtain ⟨x, hx, heq⟩ := htaps.read n hn
      exact ⟨x, List.mem_append_left _ hx, heq⟩

end Routes

/-- What the program of a stage may write its errors to. -/
def Errs (C : Chain) (k : Kernel) (i : Nat) (err : Handle) : Prop :=
  k.Takes err ∧ (i + 1 = C.length → C.merges = true → err = C.port.handle) ∧
    (err = C.port.handle → (i + 1 = C.length ∧ C.merges = true) ∨ C.port = .nowhere)

/-- A run all of whose programs have been started, and in which nothing has run since, but the shell
has said something. -/
structure Staffed (C : Chain) (said : Bytes) (r₀ r : Run) : Prop where
  beside : r₀.session.Beside r.session
  shown : r.session.screen.bytesOn .out = r₀.session.screen.bytesOn .out ++ said
  fresh : r.Fresh
  wiring : r.wiring = r₀.wiring
  stages : r.stages = r₀.stages
  couples : Couples C r
  patience : r.kernel.patience = r₀.kernel.patience
  pipes : ∀ m, r.kernel.pipeContent m = ByteArray.empty
  crew : C.Crew r₀.session r₀.stages (Errs C r.kernel) C.length r.kernel
  jobs : ∀ t ∈ r.kernel.tasks, ∃ job ∈ r.jobs, job.pid = t.pid
  pump : r.pump = { queue := [], active := r.streams.length }
  taps : Taps C.port r.streams
  port : r.kernel.Takes C.port.handle
  landed : ∀ bytes, r₀.kernel.Landed C.port bytes → r.kernel.Landed C.port bytes

namespace Starting

variable {C : Chain} {process : Process}

theorem couples (h : Starting C r₀ n r) (hC : Couples C r₀) (hcouplers : r'.couplers = r.couplers)
    (hstages : r'.stages = r.stages) : Couples C r' :=
  hC.congr (hcouplers.trans h.couplers) (hstages.trans h.stages)

/-- Errors that come to the terminal do not come to where the output goes. -/
theorem errs_of_mutters {k : Kernel} {err : Handle} (hm : k.Mutters err) (hne : err ≠ C.port.handle)
    (hi : i < n) (hn : n + 1 = C.length) (k' : Kernel) : Errs C k' i err := by
  refine ⟨?_, fun hlast => by omega, fun heq => absurd heq hne⟩
  obtain rfl | ⟨m, rfl, -⟩ := hm <;> trivial

/-- The crew of the first stages does for the whole chain if the last stage has no program. -/
theorem crew_of_mutters (h : Starting C r₀ n r) (hn : n + 1 = C.length)
    (hclear : ∀ x, r.kernel.Mutters x → x ≠ C.port.handle) (k : Kernel) :
    C.Crew r₀.session r₀.stages (Errs C k) n r.kernel where
  tasks t ht := by
    obtain ⟨i, stage, err, hi, hstage, hp, hm, herr⟩ := h.crew.tasks t ht
    exact ⟨i, stage, err, hi, hstage, hp, hm, errs_of_mutters herr (hclear err herr) hi hn k⟩
  manned := h.crew.manned
  pids := h.crew.pids
  recent := h.crew.recent
  seats := h.crew.seats

/-- The last stage has no program, and the shell has said so. -/
theorem staffed_utters (h : Starting C r₀ n r) (hC : Couples C r₀) (hn : n + 1 = C.length)
    (hstage : r₀.stages[n]? = some stage) (hnone : ∀ process, ¬ Launches r₀.session stage process)
    (hport : C.port = .tap (.screen .out)) (hspilled : r₀.kernel.spilled = [])
    (hs : r.Says said r') : Staffed C said r₀ r' := by
  have hclear (x : Handle) (hx : r.kernel.Mutters x) : x ≠ C.port.handle := by
    rw [hport]
    obtain rfl | ⟨m, rfl, -⟩ := hx <;> exact nofun
  have hcrew := ((h.crew_of_mutters hn hclear r'.kernel).skip hstage hnone).congr hs.kernel.tasks
    hs.kernel.nextPid
  exact {
    beside := h.beside.trans hs.beside
    shown := by rw [hs.shown, h.shown]
    fresh := hs.fresh h.fresh
    wiring := hs.wiring.trans h.wiring
    stages := hs.stages.trans h.stages
    couples := h.couples hC hs.couplers hs.stages
    patience := hs.kernel.patience.trans h.patience
    pipes m := hs.kernel.pipes m (h.pipes m)
    crew := hn ▸ hcrew
    jobs := by
      rw [hs.kernel.tasks, hs.jobs]
      exact h.jobs
    pump := by rw [hs.pump, h.pump, hs.streams]
    taps := by
      rw [hs.streams, hport]
      exact ⟨fun x hx => ⟨.err, (h.streams x hx).1⟩,
        fun x hx => by simp [(h.streams x hx).1], nofun⟩
    port := by
      rw [hport]
      trivial
    landed bytes hlanded := by
      have hnone' : r'.kernel.spilled = [] := hs.kernel.spilled.trans h.fresh.spilled
      rw [hport] at hlanded ⊢
      simpa [Kernel.Landed, Kernel.spilledOn, hnone', hspilled] using hlanded }

/-- The program of the last stage has been started. -/
theorem staffed_spawned (h : Starting C r₀ n r) (hC : Couples C r₀) (hn : n + 1 = C.length)
    (hstage : r₀.stages[n]? = some stage) (hp : Launches r₀.session stage process)
    (hends : r.EndsAt C.port) (hspilled : r₀.kernel.spilled = []) (hprep : r.Prepares r₁)
    {err : Handle} {streams : List (Nat × Outlet)} (hport : r₁.kernel.Takes C.port.handle)
    (herr : r₁.kernel.Takes err) (hmerges : C.merges = true → err = C.port.handle)
    (happart : err = C.port.handle → C.merges = true ∨ C.port = .nowhere)
    (htaps : Taps C.port streams) (hl : r₁.Spawned n process [(0, C.input n), (1, C.port.handle),
      (2, err)] streams r') : Staffed C [] r₀ r' := by
  obtain ⟨k, hbefore, hafter⟩ := hl.kernel
  have h₁ := h.prepares hprep
  have houtput : C.output n = C.port.handle := by
    unfold Chain.output
    rw [if_neg (by omega)]
  have htakes (x : Handle) (hx : r₁.kernel.Takes x) : r'.kernel.Takes x :=
    hafter.takes x (hbefore.takes x hx)
  have herrs : Errs C r'.kernel n err :=
    ⟨htakes err herr, fun _ => hmerges, fun heq => (happart heq).imp_left fun hm => ⟨hn, hm⟩⟩
  have hbegun : C.Crew r₀.session r₀.stages (Errs C r'.kernel) n k :=
    (h.crew_of_mutters hn (fun x => hends.ne_handle) r'.kernel).congr
      (hbefore.tasks.trans hprep.kernel.tasks) (hbefore.nextPid.trans hprep.kernel.nextPid)
  have hpid : 0 < k.nextPid := hbefore.nextPid ▸ h₁.nextPid
  have hcrew : C.Crew r₀.session r₀.stages (Errs C r'.kernel) (n + 1) r'.kernel :=
    (hbegun.spawn hstage hp hpid herrs).congr (by rw [houtput]; exact hafter.tasks)
      (by rw [houtput]; exact hafter.nextPid)
  obtain ⟨t, htasks, hnew⟩ : ∃ t, r'.kernel.tasks = k.tasks ++ [t] ∧ t.pid = k.nextPid :=
    ⟨_, hafter.tasks, rfl⟩
  -- The numbers of the streams that were there before are smaller.
  have hold (x : Nat × Outlet) (hx : x ∈ r.streams) : C.port ≠ .tap (.stream x.1) := by
    intro heq
    exact hends.ne_handle (x := .tap (.stream x.1)) (.inr ⟨x.1, rfl, (h.streams x hx).2⟩)
      (by rw [heq]; rfl)
  exact {
    beside := h₁.beside.trans hl.beside
    shown := by rw [hl.shown, h₁.shown, List.append_nil]
    fresh := hl.fresh
    wiring := hl.wiring.trans h₁.wiring
    stages := hl.stages.trans h₁.stages
    couples := h₁.couples hC hl.couplers hl.stages
    patience := hafter.patience.trans (hbefore.patience.trans h₁.patience)
    pipes m := hafter.pipes m (hbefore.pipes m (h₁.pipes m))
    crew := hn ▸ hcrew
    jobs t' ht' := by
      rw [hl.jobs]
      rw [htasks, hbefore.tasks] at ht'
      rcases List.mem_append.mp ht' with hmem | hlast
      · obtain ⟨job, hjob, hpid'⟩ := h₁.jobs _ hmem
        exact ⟨job, List.mem_append_left _ hjob, hpid'⟩
      · obtain rfl := List.mem_singleton.mp hlast
        exact ⟨_, List.mem_append_right _ (List.mem_singleton_self _),
          (hnew.trans hbefore.nextPid).symm⟩
    pump := by rw [hl.pump, h₁.pump, hl.streams, List.length_append]
    taps := by
      rw [hl.streams, hprep.streams]
      refine ⟨fun x hx => ?_, fun x hx => ?_, fun m hm => ?_⟩
      · exact (List.mem_append.mp hx).elim (fun hx => ⟨.err, (h.streams x hx).1⟩) (htaps.screen x)
      · exact (List.mem_append.mp hx).elim
          (fun hx => iff_of_false (by simp [(h.streams x hx).1]) (hold x hx)) (htaps.out x)
      · obtain ⟨x, hx, heq⟩ := htaps.read m hm
        exact ⟨x, List.mem_append_right _ hx, heq⟩
    port := htakes _ hport
    landed bytes hlanded := by
      have hnone : r'.kernel.spilled = [] := hl.fresh.spilled
      have hopened : r'.kernel.opened = r₀.kernel.opened :=
        hafter.opened.trans (hbefore.opened.trans h₁.opened)
      have hfiles : r'.kernel.files = r₀.kernel.files :=
        hafter.files.trans (hbefore.files.trans h₁.files)
      exact hlanded.congr (hnone.trans hspilled.symm) hopened hfiles }

theorem isLast_eq (h : Starting C r₀ n r) (hC : Couples C r₀) (hn : n + 1 = C.length) :
    r.isLast n = true := by
  rw [isLast, h.stages, hC.length]
  simpa using hn

theorem textFault_eq (h : Starting C r₀ n r) (arguments : List String) :
    textFault? arguments r.session.environment = textFault? arguments r₀.session.environment := by
  rw [h.beside.environment]

/-- When the last stage is given what it writes to, programs start as they did at first. -/
theorem start_descriptorsFor (h : Starting C r₀ n r) (hC : Couples C r₀)
    (hn : n + 1 = C.length) {p : Port} (hends : r.EndsAt p) {merges : Bool}
    (herrs : merges = false → r.ErrsApart p) (arguments : List String) (path : Path) : start
    (r.descriptorsFor n merges).1.session arguments path = start r₀.session arguments path := by
  obtain ⟨r₁, err, streams, hroute, hprep, -⟩ :=
    h.fresh.descriptorsFor_last (h.isLast_eq hC hn) hends herrs
  rw [hroute]
  exact start_congr (h.beside.trans hprep.beside).upkeep (hprep.kernel.files.trans h.files) ..

/-- The last stage is dealt with, for which a program can be started. -/
theorem spawn_program (h : Starting C r₀ n r) (hC : Couples C r₀) (hn : n + 1 = C.length)
    (hstage : r₀.stages[n]? = some stage) (hp : Launches r₀.session stage process)
    (htext : textFault? (stage.command :: stage.args) r₀.session.environment = none)
    (hmerges : C.merges = stage.redirections.merges) (hends : r.EndsAt C.port)
    (herrs : C.merges = false → r.ErrsApart C.port) (hspilled : r₀.kernel.spilled = []) :
    ∃ r', r.spawn n stage = (none, r') ∧ Staffed C [] r₀ r' := by
  obtain ⟨path, ht, hstart⟩ := hp
  rw [hmerges] at herrs
  obtain ⟨r₁, err, streams, hroute, hprep, hport, herr, hmerged, happart, htaps⟩ :=
    h.fresh.descriptorsFor_last (h.isLast_eq hC hn) hends herrs
  have hstart' : start r.session (stage.command :: stage.args) path = .ok process :=
    (start_congr h.beside.upkeep h.files ..).trans hstart
  obtain ⟨r', hspawn, hl⟩ :=
    h.fresh.spawnProgram_ok hroute hprep ((h.textFault_eq _).trans htext) hstart'
  have hinput : r.inputHandle n = C.input n := (h.couples hC rfl rfl).inputHandle_eq (by omega)
  rw [hinput] at hl
  refine ⟨r', ?_, h.staffed_spawned hC hn hstage ⟨path, ht, hstart⟩ hends hspilled hprep hport herr
    (fun hm => hmerged (hmerges ▸ hm)) (fun heq => (happart heq).imp_left fun hm =>
      hmerges ▸ hm) htaps hl⟩
  simp only [Run.spawn, ht, hspawn]

/-- The last stage is dealt with, which is a builtin or cannot run. -/
theorem spawn_other (h : Starting C r₀ n r) (hC : Couples C r₀) (hn : n + 1 = C.length)
    (hstage : r₀.stages[n]? = some stage) (hnone : ∀ process, ¬ Launches r₀.session stage process)
    (htext : ∀ path, stage.target = .program (some path) →
      textFault? (stage.command :: stage.args) r₀.session.environment = none)
    (hport : C.port = .tap (.screen .out)) {p : Port} (hends : r.EndsAt p)
    (herrs : stage.redirections.merges = false → r.ErrsApart p) (herr : r₀.wiring.err ≠ .next)
    (hspilled : r₀.kernel.spilled = []) :
    ∃ r' writes, r.spawn n stage = (none, r') ∧ (stage.isBuiltin = true → writes = []) ∧
      (stage.isBuiltin = false → ∀ w input m output, Produces r₀.session stage w input m output →
        output = (Account.texts writes).on) ∧
      Staffed C (if r₀.wiring.err = .screen .out then (Account.texts writes).taken true else []) r₀
        r' := by
  have hi := h.isLast_eq hC hn
  have houtlet (r' : Run) (hlast : r'.isLast n = true) (hwiring : r'.wiring = r₀.wiring) :
      r'.errOutlet n = r₀.wiring.err := by simp [errOutlet, hlast, hwiring]
  have htexts (text : String) : (Account.texts [(.err, text)]).taken true = Utf8.encode text := by
    simp [Account.texts_cons, Account.taken_of]
  have hstaffed {said : Bytes} {r' : Run} (hs : r.Says said r') : Staffed C said r₀ r' :=
    h.staffed_utters hC hn hstage hnone hport hspilled hs
  unfold Run.spawn
  split
  · next b ht =>
    refine ⟨_, [], rfl, fun _ => rfl, fun hb => by simp [Stage.isBuiltin, ht] at hb, ?_⟩
    have hclose := hstaffed (h.fresh.closeEnds (inputEnds n)).utters
    simpa using hclose
  · next ht =>
    have hmissing := h.fresh.says_notFound (i := n) (by rwa [houtlet r hi h.wiring]) stage
    have hclose :=
      hmissing.prepares ((hmissing.fresh h.fresh).closeEnds (inputEnds n ++ r.outputEnds n))
    rw [houtlet r hi h.wiring, ← htexts] at hclose
    refine ⟨_, [(.err, missingText stage)], rfl, fun hb => by simp [Stage.isBuiltin, ht] at hb,
      fun _ w input m output hproduces => ?_, hstaffed hclose⟩
    cases hproduces <;> simp_all
  · next path ht =>
    obtain ⟨r₁, err, streams, hroute, hprep, -⟩ := h.fresh.descriptorsFor_last hi hends herrs
    have hstarts : start r.session (stage.command :: stage.args) path =
        start r₀.session (stage.command :: stage.args) path :=
          start_congr h.beside.upkeep h.files ..
    cases hstart : start r.session (stage.command :: stage.args) path with
    | ok process => exact absurd ⟨path, ht, hstarts.symm.trans hstart⟩ (hnone process)
    | error e =>
      obtain ⟨r₂, hp₂, hspawn⟩ :=
        hprep.spawnProgram_error hroute ((h.textFault_eq _).trans (htext path ht)) hstart
      have houtlet₂ := houtlet r₂ ((hp₂.isLast n).trans hi) (hp₂.wiring.trans h.wiring)
      have hrefused :=
        hp₂.utters.trans ((hp₂.fresh h.fresh).says_cannotStart (i := n) (by rwa [houtlet₂]) stage e)
      have hclose :=
        hrefused.prepares ((hrefused.fresh h.fresh).closeEnds (inputEnds n ++ r.outputEnds n))
      rw [List.nil_append, houtlet₂, ← htexts] at hclose
      refine ⟨_, [(.err, refusedText stage e)], hspawn,
        fun hb => by simp [Stage.isBuiltin, ht] at hb,
        fun _ w input m output hproduces => ?_, hstaffed hclose⟩
      cases hproduces <;> simp_all

end Starting

end Run

end Pipeline

end CommandShell
