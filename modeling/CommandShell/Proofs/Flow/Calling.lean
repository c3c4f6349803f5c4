import CommandShell.Proofs.Calls
import CommandShell.Proofs.Flow.Driving
import CommandShell.Proofs.Flow.Writing
import CommandShell.Proofs.Ledger.Phases

/-!
# Builtins in a chain

A builtin before the last stage writes its output into the pipe behind it, while the programs are at
work, and shows its errors. When it has been called the shell does not hold the pipe any more. The
builtin of the last stage writes where the stage is redirected to.

## Main statements

- `Pipeline.Run.Drives.performs`: a builtin before the last stage is called.
- `Pipeline.Run.Drives.runBuiltins`: all builtins before the last stage are called, from left to
  right.
- `Pipeline.Run.Drives.runLast`: the last stage has its turn.
-/

namespace CommandShell

open Builtin (Emission)
open Pipeline (Outlets)

namespace Pipeline.Run

variable {C : Chain} {before : Bytes} {o : Outlook} {r r' r'' : Run} {i n : Nat} {stage : Stage}
  {b : Builtin} {capture : Builtin.Capture} {replies : Nat → List Emission}

/-- A run with other sinks and another session. -/
def put (r : Run) (x : Outlets × Session) : Run :=
  { r with wiring := { r.wiring with outlets := x.1 }, session := x.2 }

/-- Texts that are written go to sinks. -/
theorem foldl_write (r : Run) (i : Nat) (writes : List Emission) :
    writes.foldl (fun r e => r.write (r.outletFor i e.1) e.2) r =
      r.put (writes.foldl (fun x e => Outlets.write e.2 (r.outletFor i e.1) x.1 x.2)
        (r.wiring.outlets, r.session)) := by
  suffices hput : ∀ x, writes.foldl (fun r e => r.write (r.outletFor i e.1) e.2) (r.put x) =
      r.put (writes.foldl (fun x e => Outlets.write e.2 (r.outletFor i e.1) x.1 x.2) x) from
    hput (r.wiring.outlets, r.session)
  induction writes with
  | nil => exact fun _ => rfl
  | cons e rest ih => exact fun x => ih (Outlets.write e.2 (r.outletFor i e.1) x.1 x.2)

theorem flush_screen (h : r.wiring.outlets.Poised (fun _ => False) r.session) (c : Channel) :
    r.flush (.screen c) = r := by
  unfold flush onOutlet
  rw [h.flush_screen]

/-- A run in which builtins have been called. -/
structure Follows (r r' : Run) : Prop where
  couplers : r'.couplers = r.couplers
  pump : r'.pump = r.pump
  streams : r'.streams = r.streams
  stages : r'.stages = r.stages
  jobs : r'.jobs = r.jobs
  out : r'.wiring.out = r.wiring.out
  err : r'.wiring.err = r.wiring.err

theorem Follows.refl (r : Run) : r.Follows r := ⟨rfl, rfl, rfl, rfl, rfl, rfl, rfl⟩

theorem Follows.trans (h : r.Follows r') (g : r'.Follows r'') : r.Follows r'' :=
  ⟨g.couplers.trans h.couplers, g.pump.trans h.pump, g.streams.trans h.streams,
    g.stages.trans h.stages, g.jobs.trans h.jobs, g.out.trans h.out, g.err.trans h.err⟩

theorem Follows.isLast (h : r.Follows r') (i : Nat) : r'.isLast i = r.isLast i := by
  rw [Run.isLast, Run.isLast, h.stages]

theorem Follows.outletFor (h : r.Follows r') (i : Nat) (c : Channel) :
    r'.outletFor i c = r.outletFor i c := by
  cases c <;> simp only [Run.outletFor, Run.outOutlet, Run.errOutlet, h.isLast, h.out, h.err]

theorem Calm.ne_fault {ending : Except Halt Int} (h : Calm ending) (f : Fault) :
    ending ≠ .error (.fault f) := by
  obtain ⟨status, rfl | rfl⟩ := h <;> simp

/-- A file that a chain ends in is left alone by what a builtin does by itself. -/
def Leaves (C : Chain) (s s' : Session) : Prop :=
  ∀ n place executable, C.port = .file n place executable →
    s'.world.files.get? place = s.world.files.get? place

section Call

/-- The run in which the builtin of a stage has changed the session, but not written yet. -/
def replied (capture : Builtin.Capture) (r : Run) (i : Nat) (stage : Stage) (b : Builtin) : Run :=
  { r.entered i stage with
    session := (b.run capture (r.entered i stage).session stage.args).session }

theorem follows_replied (r : Run) (i : Nat) (stage : Stage) (b : Builtin) :
    r.Follows (replied capture r i stage b) := by
  unfold replied entered
  split <;> exact ⟨rfl, rfl, rfl, rfl, rfl, rfl, rfl⟩

theorem session_entered (r : Run) (i : Nat) (stage : Stage) :
    (r.entered i stage).session =
      r.session.note .debug "pipeline" ("builtin " ++ stage.command) none := by
  unfold entered
  split <;> rfl

theorem beside_entered (r : Run) (i : Nat) (stage : Stage) :
    r.session.Beside (r.entered i stage).session := by
  rw [session_entered]
  exact .note r.session .debug _ none

/-- What a builtin changes by itself is nothing to the programs. -/
theorem Drives.shows_replied (h : Drives C before o n r) (hb : b ≠ .ai)
    (hleaves : Leaves C (r.entered i stage).session
      (b.run capture (r.entered i stage).session stage.args).session) :
    C.Shows before o (replied capture r i stage b).session ∧
      r.session.world.toKernel.Apart (replied capture r i stage b).session.world.toKernel ∧
      (replied capture r i stage b).session.world.patience = r.session.world.patience ∧
      (replied capture r i stage b).session.direct = r.session.direct ∧
      (replied capture r i stage b).session.interrupts = r.session.interrupts := by
  have hedited := Builtin.edited_run capture hb (r.entered i stage).session stage.args
  have hentered := h.shows.note .debug "pipeline" ("builtin " ++ stage.command) none
  rw [← session_entered r i stage] at hentered
  have hworld : (r.entered i stage).session.world = r.session.world := by
    rw [session_entered, Session.world_note]
  obtain ⟨files, hfiles⟩ := hedited.world
  have hbeside := r.beside_entered i stage
  refine ⟨hentered.edited hedited hleaves, ?_, ?_, hedited.direct.trans hbeside.direct,
    hedited.interrupts.trans hbeside.interrupts⟩
  · change r.session.world.toKernel.Apart
        (b.run capture (r.entered i stage).session stage.args).session.world.toKernel
    rw [hfiles, hworld]
    exact .of_eq rfl rfl rfl rfl
  · change (b.run capture (r.entered i stage).session stage.args).session.world.patience = _
    rw [hfiles, hworld]

/-- What a builtin has written is in the sinks, or has gone where they lead. -/
def spoken (capture : Builtin.Capture) (r : Run) (i : Nat) (stage : Stage) (b : Builtin) :
    Outlets × Session :=
  (b.run capture (r.entered i stage).session stage.args).writes.foldl
    (fun x e => Outlets.write e.2 ((replied capture r i stage b).outletFor i e.1) x.1 x.2)
    ((replied capture r i stage b).wiring.outlets, (replied capture r i stage b).session)

/-- The run in which the builtin of a stage has returned. -/
def returned (capture : Builtin.Capture) (r : Run) (i : Nat) (stage : Stage) (b : Builtin) : Run :=
  ((replied capture r i stage b).put (spoken capture r i stage b)).note
    (.returned i (b.run capture (r.entered i stage).session stage.args).ending)

/-- A call of a builtin that does not fail. -/
theorem callBuiltin_eq (hb : b ≠ .ai)
    (hok : ∀ f, (b.runFor (host i) capture stage.args (r.entered i stage)).1 ≠ .error (.fault f)) :
    (b.runFor (host i) capture stage.args (r.entered i stage)).1 =
        (b.run capture (r.entered i stage).session stage.args).ending ∧
      r.callBuiltin capture i stage b =
        ((b.run capture (r.entered i stage).session stage.args).ending,
        let r := returned capture r i stage b
        let r := if r.isLast i then r.flush r.wiring.out else r.closeNext i
        r.flush (r.errOutlet i)) := by
  have hrun := Aside.runFor_eq_foldl hb hok
  change _ = (_, List.foldl _ (replied capture r i stage b) _) at hrun
  rw [foldl_write] at hrun
  refine ⟨congrArg Prod.fst hrun, ?_⟩
  unfold entered at hrun
  unfold callBuiltin
  simp only [Builtin.runUntil_none, hrun]
  rfl

/-- A run in which the builtin of a stage has been called. -/
structure Performs (C : Chain) (capture : Builtin.Capture) (before : Bytes) (o : Outlook)
    (r : Run) (i : Nat) (stage : Stage) (b : Builtin) (o' : Outlook) (r' : Run) : Prop where
  drives : Drives C before o' (i + 1) r'
  follows : r.Follows r'
  beside : (replied capture r i stage b).session.Beside r'.session
  evolves : C.Evolves (· = i) o r.kernel o' r'.kernel

theorem Drives.isLast_eq (h : Drives C before o n r) (i : Nat) :
    r.isLast i = decide (i + 1 = C.length) := by
  rw [Run.isLast, h.couples.length]

/-- The shell lets go of the pipe behind a builtin. -/
theorem Holds.erase (h : Holds C i r) (hstages : r'.stages = r.stages)
    (hheld : r'.kernel.held = r.kernel.held.erase (.writer (C.base + i))) : Holds C (i + 1) r' := by
  have hkept (y : Handle) (hy : y ≠ .writer (C.base + i)) : y ∈ r'.kernel.held ↔
      y ∈ r.kernel.held := by
    rw [hheld]
    exact List.mem_erase_of_ne hy
  refine ⟨fun m hm => h.reader m ((hkept _ (by simp)).mp hm), fun j hj => ?_, fun j => ?_⟩
  · rw [hstages]
    by_cases hji : j = i
    · subst hji
      refine iff_of_false (fun hmem => ?_) fun hle => by omega
      have hcount := h.single j
      have hpos : 0 < (r.kernel.held.erase (.writer (C.base + j))).count (.writer (C.base + j)) :=
        List.count_pos_iff.mpr (hheld ▸ hmem)
      rw [List.count_erase_self] at hpos
      omega
    · rw [hkept _ (by simpa using hji), h.writer j hj]
      exact and_congr_left fun _ => by omega
  · rw [hheld]
    exact Nat.le_trans (List.Sublist.count_le _ List.erase_sublist) (h.single j)

/-- Behind the last stage there is no pipe. -/
theorem Holds.last (h : Holds C i r) (hi : i + 1 = C.length) (hstages : r'.stages = r.stages)
    (hheld : r'.kernel.held = r.kernel.held) : Holds C (i + 1) r' where
  reader m := hheld ▸ h.reader m
  writer j hj := by
    rw [hheld, hstages, h.writer j hj]
    exact and_congr_left fun _ => by omega
  single j := hheld ▸ h.single j

/-- The programs of a run have been at work while builtins have been called. -/
theorem Drives.onwards {before' : Bytes} {own : Nat → Prop} {o' : Outlook} {m : Nat}
    (h : Drives C before o n r) (hf : r.Follows r') (hshows : C.Shows before' o' r'.session)
    (hpoised : r'.wiring.outlets.Poised (fun _ => False) r'.session)
    (hholds : Holds C m r') (hevolves : C.Evolves own o r.kernel o' r'.kernel)
    (hpatience : r'.session.world.patience = r.session.world.patience)
    (hinterrupts : r'.session.interrupts = r.session.interrupts) : Drives C before' o' m r' where
  shows := hshows
  patience := by
    have hsame : r'.kernel.patience = r.kernel.patience := hpatience
    rw [hsame]
    exact Nat.lt_of_le_of_lt hevolves.work h.patience
  interrupts := hinterrupts.trans h.interrupts
  poised := hpoised
  couples := h.couples.congr hf.couplers hf.stages
  holds := hholds
  programs j hm := by
    rw [hf.stages]
    exact h.programs j (hevolves.was_manned hm)
  jobs t ht j err hm := by
    obtain ⟨u, hu, hpid, hmu⟩ := hevolves.manned t ht j err hm
    rw [hf.jobs, ← hpid]
    exact h.jobs u hu j err hmu
  pump := by rw [hf.pump, hf.streams, h.pump]
  taps := hf.streams ▸ h.taps

section Earlier

variable (h : Drives C before o i r) (hi : i + 1 < C.length)
include h hi

theorem Drives.not_isLast : r.isLast i = false := by
  rw [h.isLast_eq]
  simpa using Nat.ne_of_lt hi

/-- A builtin before the last stage is about to write. -/
theorem Drives.writing_replied (hbuiltin : isBuiltinAt r.stages i) (hb : b ≠ .ai)
    (hleaves : Leaves C (r.entered i stage).session
      (b.run capture (r.entered i stage).session stage.args).session)
    {todo : Bytes} (hcoming : o.coming i .out = todo) :
    C.Writing before i o todo ((replied capture r i stage b).wiring.outlets,
      (replied capture r i stage b).session) := by
  obtain ⟨hshows, hapart, hpatience, hdirect, -⟩ := h.shows_replied hb hleaves
  have hwrapped : (replied capture r i stage b).wiring.outlets =
      r.wiring.outlets.setHeldSink .next (.ofHandle (.writer (C.base + i))) := by
    rw [← h.couples.write i hi]
    unfold replied entered
    rw [h.not_isLast hi]
    rfl
  refine ⟨hshows, ⟨hi, ?_, ?_, hpatience ▸ h.patience⟩, ?_,
    .ofHandle (.writer (C.base + i)), ?_, ?_⟩
  · rw [hapart.held]
    exact (h.holds.writer i hi).mpr ⟨Nat.le_refl i, hbuiltin⟩
  · rw [Chain.manned_congr hapart.tasks]
    exact fun hm => h.programs i hm hbuiltin
  · dsimp only
    rw [hwrapped]
    exact (h.poised.congr hdirect hapart.takes).setNext _
  · dsimp only
    rw [hwrapped]
    rfl
  · exact ⟨⟨rfl, rfl, rfl, rfl, .refl _, o, hshows.flows, .refl o _, .inl hcoming⟩, nofun,
      rfl, rfl, rfl⟩

/-- A builtin before the last stage has written, and the pipe behind it has been closed. -/
theorem Drives.closed (hbuiltin : isBuiltinAt r.stages i) (hb : b ≠ .ai)
    (hleaves : Leaves C (r.entered i stage).session
      (b.run capture (r.entered i stage).session stage.args).session)
    (hcoming : o.coming i .out =
      (Account.texts (b.run capture (r.entered i stage).session stage.args).writes).on .out) :
    ∃ o' x, Outlets.close .next (spoken capture r i stage b).1 (spoken capture r i stage b).2 = x ∧
      C.Shows before o' x.2 ∧ x.1.Poised (fun _ => False) x.2 ∧
      x.2.world.held = r.session.world.held.erase (.writer (C.base + i)) ∧
      C.Proceeds (· = i) o (replied capture r i stage b).session o' x.2 := by
  obtain ⟨-, hapart, -⟩ := h.shows_replied hb hleaves
  have hlast : (replied capture r i stage b).isLast i = false :=
    ((r.follows_replied i stage b).isLast i).trans (h.not_isLast hi)
  have hroute (c : Channel) :
      (replied capture r i stage b).outletFor i c = if c = .out then .next else .screen .err := by
    cases c <;> simp [outletFor, outOutlet, errOutlet, hlast]
  obtain ⟨o₁, y, hy, hwritten, hheld, hwrote⟩ :=
    (h.writing_replied hi hbuiltin hb hleaves hcoming).foldl
  obtain rfl : spoken capture r i stage b = y := by
    unfold spoken
    simpa only [hroute] using hy
  obtain ⟨o', hshows, hpoised, herased, hcloses⟩ := hwritten.close
  refine ⟨o', _, rfl, hshows, hpoised, ?_, hwrote.trans hcloses⟩
  rw [herased, hheld, ← hapart.held]

/-- A builtin before the last stage is called. -/
theorem Drives.performs (hbuiltin : isBuiltinAt r.stages i) (hb : b ≠ .ai)
    (hok : ∀ f, (b.runFor (host i) capture stage.args (r.entered i stage)).1 ≠ .error (.fault f))
    (hleaves : Leaves C (r.entered i stage).session
      (b.run capture (r.entered i stage).session stage.args).session)
    (hcoming : o.coming i .out =
      (Account.texts (b.run capture (r.entered i stage).session stage.args).writes).on .out) :
    ∃ o', Performs C capture before o r i stage b o' (r.callBuiltin capture i stage b).2 := by
  obtain ⟨-, hapart, hpatience, -, hinterrupts⟩ := h.shows_replied hb hleaves
  obtain ⟨-, hcall⟩ := callBuiltin_eq hb hok
  obtain ⟨o', x, hx, hshows, hpoised, hheld, hproceeds⟩ := h.closed hi hbuiltin hb hleaves hcoming
  have hfollows : r.Follows (replied capture r i stage b) := r.follows_replied i stage b
  let r₁ := ((replied capture r i stage b).put x).onLedger fun l =>
    (l.note (.returned i (b.run capture (r.entered i stage).session stage.args).ending)).close
      (.write i)
  have hfollows₁ : r.Follows r₁ :=
    ⟨hfollows.couplers, hfollows.pump, hfollows.streams, hfollows.stages, hfollows.jobs,
    hfollows.out, hfollows.err⟩
  have hlast : r₁.isLast i = false := (hfollows₁.isLast i).trans (h.not_isLast hi)
  have hresult : (r.callBuiltin capture i stage b).2 = r₁ := by
    have hclosed : (returned capture r i stage b).closeNext i = r₁ := by
      subst hx
      rfl
    have hcalled : (returned capture r i stage b).isLast i = false := hlast
    rw [hcall]
    dsimp only
    rw [hcalled, if_neg (by simp), hclosed, errOutlet, hlast, if_neg (by simp)]
    exact flush_screen (r := r₁) hpoised .err
  have hevolves : C.Evolves (· = i) o r.kernel o' r₁.kernel :=
    (Chain.Evolves.of_tasks (k := r.kernel) hapart.tasks).trans hproceeds.evolves
  have hdrives := h.onwards hfollows₁ hshows hpoised (h.holds.erase hfollows₁.stages hheld) hevolves
    (hproceeds.patience.trans hpatience) (hproceeds.beside.interrupts.trans hinterrupts)
  exact ⟨o', hresult ▸ ⟨hdrives, hfollows₁, hproceeds.beside, hevolves⟩⟩

end Earlier

section Last

variable (h : Drives C before o i r) (hi : i + 1 = C.length) (hb : b ≠ .ai)
  (hport : C.port = .tap (.screen .out))
  (hnone : o.arrived = []) (hout : r.wiring.out ≠ .next) (herr : r.wiring.err ≠ .next)
include h hi hb hport hnone hout herr

/-- The builtin of the last stage has written, and its sinks have been flushed. -/
theorem Drives.flushed : ∃ y x, Outlets.flush (r.outletFor i .out) (spoken capture r i stage b).1
        (spoken capture r i stage b).2 = y ∧ Outlets.flush (r.outletFor i .err) y.1 y.2 = x ∧
      C.Speaks (· = i) o (fun _ => False)
        (before ++ (b.run capture (r.entered i stage).session stage.args).writes.flatMap fun e =>
          if r.outletFor i e.1 = .screen .out then Utf8.encode e.2 else [])
        ((replied capture r i stage b).wiring.outlets,
          (replied capture r i stage b).session) x := by
  have hleaves : Leaves C (r.entered i stage).session
      (b.run capture (r.entered i stage).session stage.args).session :=
    fun n place executable hfile => by simp [hport] at hfile
  obtain ⟨hshows, hapart, -, hdirect, -⟩ := h.shows_replied hb hleaves
  have hfollows : r.Follows (replied capture r i stage b) := r.follows_replied i stage b
  have hlast : r.isLast i = true := by
    rw [h.isLast_eq]
    simpa using hi
  have hne (c : Channel) : r.outletFor i c ≠ .next := by
    cases c <;> simpa [outletFor, outOutlet, errOutlet, hlast]
  have hpoised : (replied capture r i stage b).wiring.outlets.Poised (fun _ => False)
      (replied capture r i stage b).session := by
    have hsame : (replied capture r i stage b).wiring.outlets = r.wiring.outlets := by
      unfold replied entered
      rw [hlast]
      rfl
    rw [hsame]
    exact h.poised.congr hdirect hapart.takes
  have hstart : C.Speaks (· = i) o (fun _ => False) before
      ((replied capture r i stage b).wiring.outlets, (replied capture r i stage b).session)
      ((replied capture r i stage b).wiring.outlets, (replied capture r i stage b).session) :=
        .start hshows hpoised
  have hspoken := (hstart.mono fun _ => False.elim).foldl hport hnone (fun c =>
    (hfollows.outletFor i c).symm ▸ hne c)
    (b.run capture (r.entered i stage).session stage.args).writes
  change C.Speaks _ _ _ _ _ (spoken capture r i stage b) at hspoken
  simp only [hfollows.outletFor] at hspoken
  have hflushed := (hspoken.flush hport hnone (hne .out)).flush hport hnone (hne .err)
  refine ⟨_, _, rfl, rfl, hflushed.mono fun c hdirty => ?_⟩
  obtain ⟨⟨⟨c', heq⟩, hout⟩, herr⟩ := hdirty
  cases c' with
  | out => exact hout heq
  | err => exact herr heq

/-- The builtin of the last stage is called, when nothing has come out of the chain. -/
theorem Drives.performs_last
    (hok : ∀ f, (b.runFor (host i) capture stage.args (r.entered i stage)).1 ≠ .error (.fault f)) :
    Performs C capture (before ++
      (b.run capture (r.entered i stage).session stage.args).writes.flatMap fun e =>
      if r.outletFor i e.1 = .screen .out then Utf8.encode e.2 else []) o r i stage b o
      (r.callBuiltin capture i stage b).2 := by
  have hleaves : Leaves C (r.entered i stage).session
      (b.run capture (r.entered i stage).session stage.args).session :=
    fun n place executable hfile => by simp [hport] at hfile
  obtain ⟨-, hapart, hpatience, -, hinterrupts⟩ := h.shows_replied hb hleaves
  obtain ⟨-, hcall⟩ := callBuiltin_eq hb hok
  obtain ⟨y, x, hy, hx, hflushed⟩ := h.flushed hi hb hport hnone hout herr
  have hfollows : r.Follows (replied capture r i stage b) := r.follows_replied i stage b
  have hlast : r.isLast i = true := by
    rw [h.isLast_eq]
    simpa using hi
  let r₁ := ((replied capture r i stage b).put x).onLedger fun l =>
    l.note (.returned i (b.run capture (r.entered i stage).session stage.args).ending)
  have hfollows₁ : r.Follows r₁ :=
    ⟨hfollows.couplers, hfollows.pump, hfollows.streams, hfollows.stages, hfollows.jobs,
    hfollows.out, hfollows.err⟩
  have hout' : r.outletFor i .out = r.wiring.out := if_pos hlast
  have hresult : (r.callBuiltin capture i stage b).2 = r₁ := by
    have hcalled : (returned capture r i stage b).isLast i = true := (hfollows.isLast i).trans hlast
    have hfirst : (returned capture r i stage b).wiring.out = r.outletFor i .out :=
      hfollows.out.trans hout'.symm
    have hsecond (outlet : Outlet) :
        ((returned capture r i stage b).flush outlet).errOutlet i = r.outletFor i .err := by
      have hflush : r.Follows ((returned capture r i stage b).flush outlet) :=
        ⟨hfollows.couplers, hfollows.pump,
        hfollows.streams, hfollows.stages, hfollows.jobs, hfollows.out, hfollows.err⟩
      exact hflush.outletFor i .err
    rw [hcall]
    dsimp only
    rw [hcalled, if_pos rfl, hsecond, hfirst]
    subst hy hx
    rfl
  have hevolves : C.Evolves (· = i) o r.kernel o r₁.kernel :=
    (Chain.Evolves.of_tasks (k := r.kernel) hapart.tasks).trans hflushed.proceeds.evolves
  have hheld : r₁.kernel.held = r.kernel.held := hflushed.apart.held.trans hapart.held
  have hdrives := h.onwards hfollows₁ hflushed.shows hflushed.poised
    (h.holds.last hi hfollows₁.stages hheld) hevolves
    (hflushed.proceeds.patience.trans hpatience)
      (hflushed.proceeds.beside.interrupts.trans hinterrupts)
  exact hresult ▸ ⟨hdrives, hfollows₁, hflushed.proceeds.beside, hevolves⟩

end Last

/-- A builtin that comes to an end of its own does not halt a pipeline with other stages. -/
theorem Performs.runBuiltin {before' : Bytes} {o' : Outlook}
    (h : Performs C capture before' o r i stage b o' (r.callBuiltin capture i stage b).2)
    (hb : b ≠ .ai) (hcalm : Calm (b.runFor (host i) capture stage.args (r.entered i stage)).1)
    (hlength : 1 < r.stages.length) :
    ∃ r', r.runBuiltin capture i stage b = (none, r') ∧
      Performs C capture before' o r i stage b o' r' := by
  have hcomplete (r' : Run) (hp : Performs C capture before' o r i stage b o' r') (status : Int) :
      Performs C capture before' o r i stage b o' (r'.complete i status) := by
    have hf : r'.Follows (r'.complete i status) := ⟨rfl, rfl, rfl, rfl, rfl, rfl, rfl⟩
    have hholds : Holds C (i + 1) (r'.complete i status) :=
      ⟨hp.drives.holds.reader, hp.drives.holds.writer, hp.drives.holds.single⟩
    exact ⟨hp.drives.onwards hf hp.drives.shows hp.drives.poised hholds
      (show C.Evolves (· = i) o' _ o' _ from .refl o' r'.kernel) rfl rfl,
      hp.follows.trans hf, hp.beside, hp.evolves⟩
  have hstages := h.follows.stages
  obtain ⟨hending, hcall⟩ := callBuiltin_eq hb hcalm.ne_fault
  have hcalled : Calm (r.callBuiltin capture i stage b).1 := by
    rw [hcall]
    exact hending ▸ hcalm
  clear hcall hending hcalm
  unfold Run.runBuiltin
  generalize r.callBuiltin capture i stage b = called at h hcalled hstages
  obtain ⟨ending, r'⟩ := called
  obtain ⟨status, rfl | rfl⟩ := hcalled
  · exact ⟨_, rfl, hcomplete r' h status⟩
  · have hmore : r'.stages.length ≠ 1 := by
      rw [hstages]
      omega
    exact ⟨_, by simp only [hmore, if_false], hcomplete r' h status⟩

end Call

/-- It makes no difference to the terminal. -/
theorem Performs.direct {before' : Bytes} {o' : Outlook}
    (h : Performs C capture before' o r i stage b o' r') (hb : b ≠ .ai) :
      r'.session.direct = r.session.direct :=
  h.beside.direct.trans ((Builtin.edited_run capture hb _ stage.args).direct.trans
    (r.beside_entered i stage).direct)

/-- What is asked of the calls of builtins: that they come to an end of their own, that no chat
model is asked, and that they leave a file alone that the chain ends in. What they write is what
they are known to reply. -/
structure Minds (C : Chain) (capture : Builtin.Capture) (replies : Nat → List Emission)
    (stage : Stage) (i : Nat) (b : Builtin) (r : Run) : Prop where
  ne_ai : b ≠ .ai
  calm : Calm (b.runFor (host i) capture stage.args r).1
  writes : (b.run capture r.session stage.args).writes = replies i
  leaves : Leaves C r.session (b.run capture r.session stage.args).session

/-- A stage without a builtin is passed over. -/
theorem Drives.skip (h : Drives C before o n r) (hn : ¬ isBuiltinAt r.stages n) :
    Drives C before o (n + 1) r := by
  refine { h with holds := ⟨h.holds.reader, fun i hi => ?_, h.holds.single⟩ }
  rw [h.holds.writer i hi]
  refine ⟨fun ⟨hle, hb⟩ => ⟨Nat.lt_of_le_of_ne hle ?_, hb⟩, fun ⟨hle, hb⟩ =>
    ⟨Nat.le_of_succ_le hle, hb⟩⟩
  rintro rfl
  exact hn hb

end Pipeline.Run

namespace Pipeline

open Run (Drives Minds Calm isBuiltinAt)

variable {C : Chain} {before : Bytes} {o : Outlook} {r : Run} {n : Nat} {capture : Builtin.Capture}
  {replies : Nat → List Emission} {s s' : Session}

/-- What the builtins reply does not depend on what goes on beside them. -/
theorem Answers.of_beside {indexed : List (Stage × Nat)} (h : Answers capture replies s' indexed)
    (hs : s.Beside s') : Answers capture replies s indexed := by
  induction h with
  | nil => exact .nil
  | program ht _ ih => exact .program ht (ih hs)
  | builtin ht hb hw hrest => exact .builtin ht (hs.trans hb) hw hrest

/-- The builtins before the last stage are called, from left to right. -/
theorem Run.Drives.runBuiltins {todo : List Stage} (h : Drives C before o n r)
    (hn : n + todo.length < C.length)
    (htodo : ∀ j stage, todo[j]? = some stage → r.stages[n + j]? = some stage)
    (hcalls : ∀ stage i b r', Run.Calls capture (todo.zipIdx n) r stage i b r' →
      Minds C capture replies stage i b r')
    (hcoming : ∀ i, n ≤ i → i + 1 < C.length → isBuiltinAt r.stages i →
      o.coming i .out = (Account.texts (replies i)).on .out) :
    ∃ o' r', Run.runBuiltins capture (todo.zipIdx n) r = (none, r') ∧
      Drives C before o' (n + todo.length) r' ∧
      r.Follows r' ∧ r'.session.direct = r.session.direct ∧
      C.Evolves (fun _ => True) o r.kernel o' r'.kernel ∧
      ∀ rest, Answers capture replies r'.session rest →
        Answers capture replies r.session (todo.zipIdx n ++ rest) := by
  induction todo generalizing n o r with
  | nil => exact ⟨o, r, rfl, h, .refl r, rfl, .refl o r.kernel, fun _ => id⟩
  | cons stage rest ih =>
    rw [List.length_cons] at hn
    rw [List.zipIdx_cons] at hcalls
    have hstage : r.stages[n]? = some stage := htodo 0 stage rfl
    have htodo' (j : Nat) (stage' : Stage) (hj : rest[j]? = some stage') :
        r.stages[n + 1 + j]? = some stage' := by
      have hnext := htodo (j + 1) stage' hj
      rwa [← Nat.add_assoc, Nat.add_right_comm] at hnext
    rw [List.zipIdx_cons, List.length_cons, ← Nat.add_assoc, Nat.add_right_comm]
    cases ht : stage.target with
    | program path =>
      have hskip : ¬ isBuiltinAt r.stages n := by
        rintro ⟨stage', hstage', hb⟩
        obtain rfl := Option.some.inj (hstage.symm.trans hstage')
        simp [Stage.isBuiltin, ht] at hb
      obtain ⟨o', r', hrun, hdrives, hfollows, hdirect, hevolves, hanswers⟩ :=
        ih (h.skip hskip) (by omega) htodo'
        (fun _ _ _ _ hcall => hcalls _ _ _ _ (.program ht hcall)) fun i hi =>
          hcoming i (Nat.le_of_succ_le hi)
      refine ⟨o', r', ?_, hdrives, hfollows, hdirect, hevolves, fun more hmore =>
        .program ht (hanswers more hmore)⟩
      simp only [Run.runBuiltins, ht, hrun]
    | builtin b =>
      have hbuiltin : isBuiltinAt r.stages n := ⟨stage, hstage, by simp [Stage.isBuiltin, ht]⟩
      have hminds := hcalls _ _ _ _ (.now ht)
      have hlength := h.couples.length
      obtain ⟨o₁, hperforms⟩ :=
        h.performs (by omega) hbuiltin hminds.ne_ai hminds.calm.ne_fault hminds.leaves
        (by rw [hminds.writes]; exact hcoming n (Nat.le_refl n) (by omega) hbuiltin)
      obtain ⟨r₁, hran, hp⟩ := hperforms.runBuiltin hminds.ne_ai hminds.calm (by omega)
      have hsame (i : Nat) (hi : n + 1 ≤ i) (hb : isBuiltinAt r.stages i) :
          o₁.coming i = o.coming i :=
        hp.evolves.idle i (fun hm => h.programs i hm hb) (Nat.ne_of_gt hi)
      obtain ⟨o', r', hrun, hdrives, hfollows, hdirect, hevolves, hanswers⟩ :=
        ih hp.drives (by omega) (fun j stage' hj => hp.follows.stages ▸ htodo' j stage' hj)
        (fun _ _ _ _ hcall => hcalls _ _ _ _ (.builtin ht hran hcall))
        fun i hi hlt hb => by
          rw [hp.follows.stages] at hb
          rw [hsame i hi hb]
          exact hcoming i (Nat.le_of_succ_le hi) hlt hb
      refine ⟨o', r', ?_, hdrives, hp.follows.trans hfollows,
        hdirect.trans (hp.direct hminds.ne_ai), (hp.evolves.mono fun _ _ => trivial).trans hevolves,
        fun more hmore => .builtin ht (r.beside_entered n stage) hminds.writes
          ((hanswers more hmore).of_beside hp.beside)⟩
      simp only [Run.runBuiltins, ht, hran, hrun]

/-- The last stage has its turn after all others: if it is a builtin, this is called. -/
theorem Run.Drives.runLast {last : Stage} (h : Drives C before o n r) (hn : n + 1 = C.length)
    (hlength : 1 < C.length) (hstage : r.stages[n]? = some last)
    (hcalls : ∀ stage i b r', Run.Calls capture [(last, n)] r stage i b r' →
      Minds C capture replies stage i b r')
    (hport : last.isBuiltin = true → C.port = .tap (.screen .out) ∧ o.arrived = [])
    (hout : r.wiring.out ≠ .next) (herr : r.wiring.err ≠ .next) :
    ∃ r', Run.runBuiltins capture [(last, n)] r = (none, r') ∧
      Drives C (before ++ if last.isBuiltin then (replies n).flatMap fun e =>
        if r.outletFor n e.1 = .screen .out then Utf8.encode e.2 else [] else []) o C.length r' ∧
      r.Follows r' ∧ r'.session.direct = r.session.direct ∧
      C.Evolves (fun _ => True) o r.kernel o r'.kernel ∧
      Answers capture replies r.session [(last, n)] := by
  cases ht : last.target with
  | program path =>
    have hskip : ¬ isBuiltinAt r.stages n := by
      rintro ⟨stage', hstage', hb⟩
      obtain rfl := Option.some.inj (hstage.symm.trans hstage')
      simp [Stage.isBuiltin, ht] at hb
    refine ⟨r, by simp only [Run.runBuiltins,
      ht], ?_, .refl r, rfl, .refl o r.kernel, .program ht .nil⟩
    rw [if_neg (by simp [Stage.isBuiltin, ht]), List.append_nil, ← hn]
    exact h.skip hskip
  | builtin b =>
    have hb : last.isBuiltin = true := by simp [Stage.isBuiltin, ht]
    obtain ⟨hscreen, hnone⟩ := hport hb
    have hminds := hcalls _ _ _ _ (.now ht)
    have hperforms := h.performs_last hn hminds.ne_ai hscreen hnone hout herr hminds.calm.ne_fault
    obtain ⟨r', hran, hp⟩ :=
      hperforms.runBuiltin hminds.ne_ai hminds.calm (by rw [h.couples.length]; exact hlength)
    refine ⟨r', by simp only [Run.runBuiltins, ht, hran], ?_, hp.follows, hp.direct hminds.ne_ai,
      hp.evolves.mono fun _ _ => trivial,
      .builtin ht (r.beside_entered n last) hminds.writes .nil⟩
    rw [if_pos hb, ← hminds.writes, ← hn]
    exact hp.drives

end Pipeline

end CommandShell
