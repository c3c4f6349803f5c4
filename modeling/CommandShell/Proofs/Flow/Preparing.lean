import CommandShell.Proofs.Flow.Showing
import CommandShell.Proofs.Ledger.Frame
import CommandShell.Proofs.Rest

/-!
# Before programs run

While programs are started none of them runs, and the sinks that they may be given are as they were
opened. So the shell does little with the system: it takes numbers, and lets go of ends of pipes.

## Main statements

- `Kernel.Idles`: a system in which nothing has run.
- `Pipeline.Run.Fresh`: a run whose sinks are as they were opened.
- `Pipeline.Run.Prepares`: what the shell does with such a run, and that its sinks stay so.
- `Pipeline.Run.Fresh.routeTo`: what a program that writes to an outlet is given.
-/

namespace CommandShell

namespace Kernel

variable {k k' k'' : Kernel}

/-- A system in which nothing has run: the shell may have taken numbers and let go of ends of
pipes. -/
structure Idles (k k' : Kernel) : Prop where
  tasks : k'.tasks = k.tasks
  files : k'.files = k.files
  opened : k'.opened = k.opened
  spilled : k'.spilled = k.spilled
  patience : k'.patience = k.patience
  nextPid : k'.nextPid = k.nextPid
  nextNumber : k.nextNumber ≤ k'.nextNumber
  takes : ∀ x, k.Takes x → k'.Takes x
  pipes : ∀ n, k.pipeContent n = ByteArray.empty → k'.pipeContent n = ByteArray.empty

namespace Idles

theorem refl (k : Kernel) : k.Idles k :=
  ⟨rfl, rfl, rfl, rfl, rfl, rfl, Nat.le_refl _, fun _ => id, fun _ => id⟩

theorem trans (h : k.Idles k') (g : k'.Idles k'') : k.Idles k'' :=
  ⟨g.tasks.trans h.tasks, g.files.trans h.files, g.opened.trans h.opened, g.spilled.trans h.spilled,
    g.patience.trans h.patience, g.nextPid.trans h.nextPid, Nat.le_trans h.nextNumber g.nextNumber,
    fun x hx => g.takes x (h.takes x hx), fun n hn => g.pipes n (h.pipes n hn)⟩

theorem still (h : k.Idles k') : k.Still k' := .of_eq h.opened h.files

theorem number (k : Kernel) : k.Idles { k with nextNumber := k.nextNumber + 1 } :=
  ⟨rfl, rfl, rfl, rfl, rfl, rfl, Nat.le_succ _, fun _ => id, fun _ => id⟩

/-- An end of a pipe may be forgotten. -/
theorem letGo (k : Kernel) {h : Handle} (hfile : ∀ n, h ≠ .file n) : k.Idles (k.letGo h) := by
  have hkept (x : Handle) (hx : k.Takes x) : Takes { k with held := k.held.erase h } x := by
    cases x with
    | file n => exact ⟨(List.mem_erase_of_ne (hfile n).symm).mpr hx.1, hx.2⟩
    | _ => exact hx
  have herase : k.Idles { k with held := k.held.erase h } :=
    ⟨rfl, rfl, rfl, rfl, rfl, rfl, Nat.le_refl _, hkept, fun _ => id⟩
  have hpipe (k : Kernel) (n : Nat) :
      k.Idles { k with pipes := k.pipes.filter fun p => p.1 ≠ n } := by
    refine ⟨rfl, rfl, rfl, rfl, rfl, rfl, Nat.le_refl _, fun _ => id, fun m hm => ?_⟩
    unfold pipeContent at hm ⊢
    by_cases hn : m = n
    · have hnone : (k.pipes.filter fun p => p.1 ≠ n).lookup m = none := by
        rw [List.lookup_eq_none_iff]
        rintro p hp
        have hpn : p.1 ≠ n := by simpa using (List.mem_filter.mp hp).2
        simpa [hn] using Ne.symm hpn
      simp only [hnone]
      rfl
    · simp only [lookup_filter_of_ne _ hn]
      exact hm
  refine herase.trans ?_
  unfold Kernel.letGo release
  split
  · exact absurd rfl (hfile _)
  · dsimp only
    split
    · exact .refl _
    · exact hpipe ..
  · dsimp only
    split
    · exact .refl _
    · exact hpipe ..
  · exact .refl _

end Idles

end Kernel

namespace Session

/-- If nothing has come out there is nothing to show. -/
theorem absorb_of_spilled_nil {s : Session} (h : s.world.spilled = []) : s.absorb = s := by
  simp [absorb, h]

end Session

/-- The sink that an outlet has is put back. -/
theorem Pipeline.Outlets.setHeldSink_heldSink {o : Outlets} {outlet : Outlet} {k : HeldSink}
    (h : o.heldSink outlet = some k) : o.setHeldSink outlet k = o := by
  obtain ⟨_, _, _, _, _⟩ := o
  cases outlet with
  | screen c => rfl
  | file c => cases c <;> simp_all [heldSink, setHeldSink]
  | next => simp_all [heldSink, setHeldSink]

theorem Sink.idle_ofHandle (h : Handle) : (Sink.ofHandle h).Idle := ⟨rfl, rfl, rfl⟩

namespace Pipeline

/-- Programs start in the same way as long as the files are the same. -/
theorem start_congr {s s' : Session} (h : s.Upkeep s') (hfiles : s'.world.files = s.world.files)
    (arguments : List String) (path : Path) : start s' arguments path = start s arguments path := by
  obtain ⟨k, screen, log, interrupts, rfl⟩ := h
  have hkernel : k.files = s.world.files := hfiles
  unfold start startPlace
  simp only [hkernel]

namespace Run

/-- A run before any program runs: nothing has come out of the system, and the sinks are as they
were opened. -/
structure Fresh (r : Run) : Prop where
  spilled : r.kernel.spilled = []
  screens : ∀ c, r.wiring.outlets.screenSink c =
    { stream := { channel := c, direct := r.session.direct } }
  files : ∀ c sink, r.wiring.outlets.heldSink (.file c) = some sink → ∃ h, sink = .ofHandle h ∧
    r.kernel.Takes h
  next : r.wiring.outlets.next = none

/-- A run that the shell has gone on with while no program runs: nothing has been written for the
output. -/
structure Prepares (r r' : Run) : Prop where
  beside : r.session.Beside r'.session
  shown : r'.session.screen.bytesOn .out = r.session.screen.bytesOn .out
  kernel : r.kernel.Idles r'.kernel
  wiring : r'.wiring = r.wiring
  couplers : r'.couplers = r.couplers
  pump : r'.pump = r.pump
  streams : r'.streams = r.streams
  stages : r'.stages = r.stages
  jobs : r'.jobs = r.jobs

namespace Prepares

variable {r r' r'' : Run}

theorem refl (r : Run) : r.Prepares r := ⟨.refl _, rfl, .refl _, rfl, rfl, rfl, rfl, rfl, rfl⟩

theorem trans (h : r.Prepares r') (g : r'.Prepares r'') : r.Prepares r'' :=
  ⟨h.beside.trans g.beside, g.shown.trans h.shown, h.kernel.trans g.kernel, g.wiring.trans h.wiring,
    g.couplers.trans h.couplers, g.pump.trans h.pump, g.streams.trans h.streams,
      g.stages.trans h.stages,
    g.jobs.trans h.jobs⟩

/-- The sinks stay as they were opened. -/
theorem fresh (h : r.Prepares r') (hf : r.Fresh) : r'.Fresh where
  spilled := h.kernel.spilled.trans hf.spilled
  screens c := by rw [h.wiring, h.beside.direct, hf.screens]
  files c sink hs := by
    obtain ⟨x, hx, htakes⟩ := hf.files c sink (h.wiring ▸ hs)
    exact ⟨x, hx, h.kernel.takes x htakes⟩
  next := by rw [h.wiring, hf.next]

theorem isLast (h : r.Prepares r') (i : Nat) : r'.isLast i = r.isLast i := by
  rw [Run.isLast, Run.isLast, h.stages]

theorem start_eq (h : r.Prepares r') (arguments : List String) (path : Path) :
    Pipeline.start r'.session arguments path = Pipeline.start r.session arguments path :=
  start_congr h.beside.upkeep h.kernel.files arguments path

theorem onLedger (r : Run) {f : Ledger → Ledger} (hstages : (f r.toLedger).stages = r.stages)
    (hjobs : (f r.toLedger).jobs = r.jobs) : r.Prepares (r.onLedger f) :=
  ⟨.refl _, rfl, .refl _, rfl, rfl, rfl, rfl, hstages, hjobs⟩

theorem note (r : Run) (e : Event) : r.Prepares (r.note e) := onLedger r rfl rfl

theorem log (r : Run) (level : Log.Level) (message : String) (pid : Option Nat) :
    r.Prepares (r.log level message pid) := by
  refine ⟨.note .., r.session.bytesOn_note .., ?_, rfl, rfl, rfl, rfl, rfl, rfl⟩
  have hworld : (r.log level message pid).kernel = r.kernel :=
    congrArg World.toKernel (Session.world_note ..)
  rw [hworld]
  exact .refl _

theorem handAll (r : Run) (i : Nat) (ends : List CouplerEnd) : r.Prepares (r.handAll i ends) := by
  unfold Run.handAll
  induction ends generalizing r with
  | nil => exact .refl r
  | cons e rest ih => exact (note r (.handed e i)).trans (ih _)

end Prepares

theorem endHandle_ne_file (r : Run) (e : CouplerEnd) (n : Nat) : r.endHandle e ≠ .file n := by
  cases e with
  | read i | write i =>
    simp only [endHandle]
    cases r.couplers[i]? <;> simp

namespace Fresh

variable {r : Run}

/-- The shell does something with the system. -/
theorem onKernel (hf : r.Fresh) {f : Kernel → Kernel} (hk : r.kernel.Idles (f r.kernel)) :
    r.Prepares (r.onKernel f) := by
  have hnone : (r.session.onKernel f).world.spilled = [] := hk.spilled.trans hf.spilled
  have hsession : (r.onKernel f).session = r.session.onKernel f :=
    Session.absorb_of_spilled_nil hnone
  refine ⟨?_, ?_, ?_, rfl, rfl, rfl, rfl, rfl, rfl⟩
  · rw [hsession]
    exact .onKernel _ hk.still
  · rw [hsession]
    rfl
  · unfold Run.kernel
    rw [hsession]
    exact hk

theorem closeEnd (hf : r.Fresh) (e : CouplerEnd) : r.Prepares (r.closeEnd e) := by
  unfold Run.closeEnd
  split
  · exact (hf.onKernel (.letGo _ (endHandle_ne_file r e))).trans (.onLedger _ rfl rfl)
  · exact .refl r

theorem closeEnds (hf : r.Fresh) (ends : List CouplerEnd) : r.Prepares (r.closeEnds ends) := by
  unfold Run.closeEnds
  induction ends generalizing r with
  | nil => exact .refl r
  | cons e rest ih =>
    have hfirst := hf.closeEnd e
    exact hfirst.trans (ih (hfirst.fresh hf))

/-- There is nothing to flush. -/
theorem flush_eq (hf : r.Fresh) (outlet : Outlet) : r.flush outlet = r := by
  have hact : Outlets.flush outlet r.wiring.outlets r.session = (r.wiring.outlets, r.session) := by
    have habsorb : (r.session.onKernel fun _ => r.session.world.toKernel).absorb = r.session :=
      Session.absorb_of_spilled_nil hf.spilled
    unfold Outlets.flush Outlets.act
    cases outlet with
    | screen c =>
      have hflush : (r.wiring.outlets.screenSink c).flush r.session.screen =
          (r.wiring.outlets.screenSink c, r.session.screen) := by
        rw [hf.screens]
        rfl
      dsimp only
      rw [hflush]
      cases c <;> rfl
    | file c =>
      dsimp only
      split
      · rfl
      · next k hk =>
        obtain ⟨h, rfl, -⟩ := hf.files c k hk
        simp only [(Sink.idle_ofHandle h).flush_eq, habsorb]
        exact Prod.ext (Outlets.setHeldSink_heldSink hk) rfl
    | next =>
      dsimp only
      rw [show r.wiring.outlets.heldSink .next = none from hf.next]
  unfold Run.flush Run.onOutlet
  rw [hact]

/-- A message is shown for the errors. -/
theorem write_err (hf : r.Fresh) (text : String) : r.Prepares (r.write (.screen .err) text) := by
  have hact : Outlets.write text (.screen .err) r.wiring.outlets r.session =
      (r.wiring.outlets, { r.session with screen := r.session.screen.showText .err text }) := by
    have hwrite : (r.wiring.outlets.screenSink .err).write text r.session.screen =
        (r.wiring.outlets.screenSink .err, r.session.screen.showText .err text) := by
      rw [hf.screens]
      rfl
    unfold Outlets.write Outlets.act
    simp only [hwrite]
    rfl
  unfold Run.write Run.onOutlet
  rw [hact]
  refine ⟨.shown .., ?_, .refl _, rfl, rfl, rfl, rfl, rfl, rfl⟩
  simp [Screen.bytesOn_showText]

theorem notFound (hf : r.Fresh) {i : Nat} (herr : r.errOutlet i = .screen .err) (stage : Stage) :
    r.Prepares (r.notFound i stage) := by
  have hwrite := hf.write_err (stage.command ++ ": command not found\n")
  unfold Run.notFound
  rw [herr]
  dsimp only
  rw [(hwrite.fresh hf).flush_eq]
  exact hwrite.trans ((Prepares.log ..).trans (.onLedger _ rfl rfl))

theorem cannotStart (hf : r.Fresh) {i : Nat} (herr : r.errOutlet i = .screen .err) (stage : Stage)
    (e : StartError) : r.Prepares (r.cannotStart i stage e) := by
  have hlog := Prepares.log r .warning ("cannot start " ++ stage.command ++ ": " ++ e.message) none
  have hwrite :=
    hlog.trans ((hlog.fresh hf).write_err (stage.command ++ ": " ++ e.error.text ++ "\n"))
  unfold Run.cannotStart
  rw [herr]
  dsimp only
  rw [(hwrite.fresh hf).flush_eq]
  exact hwrite.trans (.onLedger _ rfl rfl)

/-- What a program that writes to a channel of the screen is given: the terminal, if it is a real
one, or a stream that the shell reads from. -/
theorem routeTo_screen (hf : r.Fresh) (c : Channel) :
    r.Prepares (r.routeTo (.screen c)).1 ∧
      (r.session.direct = true ∧ (r.routeTo (.screen c)).2 = (.tap (.screen c), []) ∨
        r.session.direct = false ∧
          (r.routeTo (.screen c)).2 =
          (.tap (.stream r.kernel.nextNumber), [(r.kernel.nextNumber, .screen c)]) ∧
          r.kernel.nextNumber < (r.routeTo (.screen c)).1.kernel.nextNumber) := by
  have hhandle : r.wiring.outlets.handle? (.screen c) =
      if r.session.direct = true then some (.tap (.screen c)) else none := by
    rw [Outlets.handle?, hf.screens]
    rfl
  unfold Run.routeTo
  simp only [hf.flush_eq, hhandle]
  cases hd : r.session.direct with
  | true => exact ⟨.refl r, .inl ⟨rfl, rfl⟩⟩
  | false =>
    have hnumber := hf.onKernel (f := fun k => { k with nextNumber := r.kernel.nextNumber + 1 })
      (.number r.kernel)
    have hkernel : (r.onKernel fun k =>
        { k with nextNumber := r.kernel.nextNumber + 1 }).kernel.nextNumber =
        r.kernel.nextNumber + 1 := by
      unfold Run.kernel Run.onKernel
      rw [Session.absorb_of_spilled_nil]
      · rfl
      · exact hf.spilled
    refine ⟨hnumber, .inr ⟨rfl, rfl, ?_⟩⟩
    change _ < (r.onKernel fun k =>
        { k with nextNumber := r.kernel.nextNumber + 1 }).kernel.nextNumber
    rw [hkernel]
    exact Nat.lt_succ_self _

/-- What a program that writes to a file is given: the file. -/
theorem routeTo_file (hf : r.Fresh) {c : Channel} {h : Handle}
    (hs : r.wiring.outlets.heldSink (.file c) = some (.ofHandle h)) :
      r.routeTo (.file c) = (r, h, []) := by
  have hhandle : r.wiring.outlets.handle? (.file c) = some h := by
    rw [Outlets.handle?, hs]
    · rfl
    · simp
  unfold Run.routeTo
  simp only [hf.flush_eq, hhandle]

end Fresh

end Run

end Pipeline

end CommandShell
