import CommandShell.Proofs.Ledger.Ends
import CommandShell.Proofs.Scope.Pipeline
import Mathlib.Data.List.Perm.Basic

/-!
# What the shell holds

The handles that the shell holds during a run are those of the coupler ends that it has not closed,
those of the sinks that have taken handles over, and what it held before. Only closing an end or a
sink lets go of a handle; a run that a builtin asks for gives back all that it takes.

## Main statements

- `Run.Accounted`: what the shell holds during a run.
- `Shell.returnsHandles_capture`: after a line has been run for a chat model the shell holds what it
  held before.
-/

namespace CommandShell

/-- The scope in which the shell neither takes hold of handles nor lets go of them. Nothing else is
excluded, so everything is within it. -/
def Scope.still : Scope :=
  ⟨fun _ => True, fun _ => True, fun _ => True, fun _ => True, False, fun _ _ => True,
    fun _ => True⟩

theorem Scope.not_grips_still : ¬ Scope.still.grips := id

/-- What is left of a list that has some elements before others, when these are taken away. -/
theorem perm_diff {α : Type} [BEq α] [LawfulBEq α] {gone rest l : List α}
    (h : l.Perm (gone ++ rest)) : (l.diff gone).Perm rest := by
  induction gone generalizing l with
  | nil => simpa using h
  | cons x gone ih =>
    rw [List.diff_cons]
    refine ih ?_
    simpa using h.erase x

theorem perm_filter_ne {α : Type} [DecidableEq α] {l : List α} (hl : l.Nodup) {x : α} (hx : x ∈ l) :
    l.Perm (x :: l.filter (· ≠ x)) := by
  have herase : l.filter (· ≠ x) = l.erase x := by
    rw [hl.erase_eq_filter]
    exact List.filter_congr fun y _ => by simp [bne, beq_eq_decide]
  exact herase ▸ List.perm_cons_erase hx

theorem Session.within_still (s : Session) : s.Within .still :=
  ⟨fun _ _ _ _ _ _ => trivial, trivial, fun _ => trivial, trivial,
    ⟨fun _ _ => trivial, fun _ => trivial⟩, fun _ _ => trivial,
    ⟨fun _ _ => trivial, fun _ _ => trivial, fun _ _ => trivial, fun _ _ => trivial,
      fun _ _ => trivial, fun _ _ => trivial⟩⟩

theorem Session.Makes.held {s s' : Session} (h : s.Makes .still s') :
    s'.world.held = s.world.held :=
  h.moves.held_eq Scope.not_grips_still

/-- Closing a sink lets go of what the shell holds for it. -/
theorem Sink.held_close (k : HeldSink) (w : Kernel) :
    (k.close w).2.held = w.held.diff k.gripped ∧ (k.close w).1.gripped = [] := by
  unfold Sink.close
  split
  · next hc => simp [gripped, hc]
  · next hc =>
    extract_lets tail s₁
    have hwritten (x : HeldSink × Kernel)
        (hx : x = if tail.isEmpty then (s₁, w) else s₁.write tail w) :
        x.1.owned = k.owned ∧ x.1.stream.device = k.stream.device ∧ x.2.held = w.held := by
      subst hx
      split
      · exact ⟨rfl, rfl, rfl⟩
      · have hmoving := Pipeline.moving_write (σ := .still) tail
        exact ⟨(hmoving.marks Scope.not_grips_still s₁ w).1, hmoving.device s₁ w trivial,
          (hmoving.moves s₁ w trivial).held_eq Scope.not_grips_still⟩
    generalize (if tail.isEmpty then (s₁, w) else s₁.write tail w) = written at hwritten
    obtain ⟨s₂, w₂⟩ := written
    obtain ⟨howned₂, hdevice₂, hheld₂⟩ := hwritten _ rfl
    have hmoving := Pipeline.moving_flush (σ := .still)
    have howned₃ := (hmoving.marks Scope.not_grips_still s₂ w₂).1
    have hdevice₃ := hmoving.device s₂ w₂ trivial
    have hheld₃ := (hmoving.moves s₂ w₂ trivial).held_eq Scope.not_grips_still
    dsimp only at howned₂ hdevice₂ hheld₂ howned₃ hdevice₃ hheld₃ ⊢
    generalize s₂.flush w₂ = flushed at howned₃ hdevice₃ hheld₃
    obtain ⟨s₃, w₃⟩ := flushed
    dsimp only at howned₃ hdevice₃ hheld₃ ⊢
    refine ⟨?_, by simp [gripped]⟩
    split
    · next howned =>
      obtain ⟨k', hmoves, hworld, -⟩ :=
        Buffered.close_eq (σ := .still) (h := s₃.stream.device) trivial (s := s₃.stream) rfl w₃
      have hheld' := hmoves.held_eq Scope.not_grips_still
      have hlet : (k'.letGo s₃.stream.device).held = k'.held.erase s₃.stream.device :=
        (Kernel.SameTasks.release ..).held
      have hgripped : k.gripped = [k.stream.device] := by
        simp [gripped, ← howned₂, ← howned₃, howned, hc]
      rw [hgripped, List.diff_cons,
        List.diff_nil, ← hdevice₂, ← hdevice₃, ← hheld₂, ← hheld₃, ← hheld', ← hlet]
      exact congrArg Kernel.held hworld
    · next howned =>
      have hgripped : k.gripped = [] := by simp [gripped, ← howned₂, ← howned₃, howned]
      rw [hgripped, List.diff_nil, ← hheld₂, ← hheld₃]

/-- A way to run lines after which the shell holds what it held before. -/
def Builtin.ReturnsHandles (capture : Builtin.Capture) : Prop :=
  ∀ line (s : Session), (capture line s).2.world.held.Perm s.world.held

namespace Pipeline

theorem Outlets.within_still (o : Outlets) : o.Within .still :=
  ⟨fun _ _ _ => trivial, fun _ _ => trivial⟩

/-- Closing an outlet lets go of what the shell holds for it. -/
theorem Outlets.held_close (outlet : Outlet) (o : Outlets) (s : Session) :
    (close outlet o s).2.world.held = s.world.held.diff (o.grippedAt outlet) ∧
      ∀ outlet', (close outlet o s).1.grippedAt outlet' =
        if outlet' = outlet then [] else o.grippedAt outlet' := by
  unfold close act
  split
  · next channel =>
    refine ⟨by simp [grippedAt, heldSink], fun outlet' => ?_⟩
    by_cases heq : outlet' = .screen channel
    · simp [heq, grippedAt, heldSink]
    · simp [heq, grippedAt]
  · split
    · next hk =>
      refine ⟨by simp [grippedAt, hk], fun outlet' => ?_⟩
      split
      · next heq => simp [heq, grippedAt, hk]
      · rfl
    · next k hk =>
      obtain ⟨hheld, hgripped⟩ := Sink.held_close k s.world.toKernel
      have habsorb := (Session.Makes.absorb
        (s.onKernel fun _ => (k.close s.world.toKernel).2).within_still).held
      refine ⟨?_, fun outlet' => ?_⟩
      · have hat : o.grippedAt outlet = k.gripped := by simp [grippedAt, hk]
        rw [hat]
        exact habsorb.trans hheld
      · rw [grippedAt_setHeldSink (ne_screen hk), hgripped]

namespace Run

variable {r r' : Run} {base : List Handle} {grips : Outlet → List Handle}

theorem within_still (r : Run) : r.Within .still :=
  ⟨r.session.within_still, fun _ _ => trivial, fun _ _ => trivial, r.wiring.outlets.within_still,
    fun _ _ => trivial, fun _ _ => trivial⟩

/-- What the shell holds for a run when it holds something for each outlet. -/
def grip (r : Run) (grips : Outlet → List Handle) : List Handle :=
  r.openEnds.map r.endHandle ++ (grips (.file .out) ++ (grips (.file .err) ++ grips .next))

/-- The shell holds what it held before, what belongs to the ends of the run, and something for each
outlet. -/
structure Accounted (base : List Handle) (grips : Outlet → List Handle) (r : Run) : Prop where
  nodup : r.openEnds.Nodup
  outlets : r.wiring.outlets.grippedAt = grips
  held : r.kernel.held.Perm (r.grip grips ++ base)

theorem endHandle_congr (h : r'.couplers = r.couplers) : r'.endHandle = r.endHandle := by
  funext e
  cases e <;> simp [endHandle, h]

namespace Accounted

/-- What closes neither an end nor a sink changes nothing. -/
theorem still (h : r.Accounted base grips) (hm : r.Makes .still r')
    (hopen : r'.openEnds = r.openEnds) : r'.Accounted base grips := by
  refine ⟨hopen ▸ h.nodup, (hm.gripped Scope.not_grips_still).trans h.outlets, ?_⟩
  have hheld : r'.kernel.held = r.kernel.held := hm.session.held
  have hgrip : r'.grip grips = r.grip grips := by
    rw [grip, grip, hopen, endHandle_congr hm.couplers]
  rw [hheld, hgrip]
  exact h.held

/-- What belongs to the run may be let go of. -/
theorem release (h : r.Accounted base grips) {gone : List Handle} {grips' : Outlet → List Handle}
    (hnodup : r'.openEnds.Nodup) (houtlets : r'.wiring.outlets.grippedAt = grips')
    (hgrip : (r.grip grips).Perm (gone ++ r'.grip grips'))
    (hheld : r'.kernel.held = r.kernel.held.diff gone) : r'.Accounted base grips' := by
  refine ⟨hnodup, houtlets, hheld ▸ perm_diff ?_⟩
  rw [← List.append_assoc]
  exact h.held.trans (hgrip.append_right base)

theorem closeEnd (h : r.Accounted base grips) (e : CouplerEnd) :
    (r.closeEnd e).Accounted base grips := by
  unfold Run.closeEnd
  split
  · next ho =>
    have hmem : e ∈ r.openEnds := by simpa [Ledger.isOpen] using ho
    have hheld :
        ((r.onKernel fun k => k.letGo (r.endHandle e)).onLedger fun l => l.close e).kernel.held =
          r.kernel.held.diff [r.endHandle e] := by
      rw [List.diff_cons, List.diff_nil]
      exact (Session.Makes.absorb (Session.within_still _)).held.trans
        (Kernel.SameTasks.release ..).held
    refine h.release (h.nodup.filter _) h.outlets ?_ hheld
    have hends := perm_filter_ne h.nodup hmem
    exact (hends.map r.endHandle).append_right _
  · exact h

theorem closeEnds (h : r.Accounted base grips) (ends : List CouplerEnd) :
    (r.closeEnds ends).Accounted base grips := by
  unfold Run.closeEnds
  induction ends generalizing r with
  | nil => exact h
  | cons e rest ih => exact ih (h.closeEnd e)

theorem closeAll (h : r.Accounted base grips) : r.closeAll.Accounted base grips :=
  h.closeEnds r.openEnds

/-- Closing the sink of a file that the last stage is redirected to, or of the pipe to the next
stage. -/
theorem close (h : r.Accounted base grips) (outlet : Outlet) :
    (r.onOutlet (Outlets.close outlet)).Accounted base (Function.update grips outlet []) := by
  obtain ⟨hheld, hgripped⟩ := Outlets.held_close outlet r.wiring.outlets r.session
  rw [h.outlets] at hheld hgripped
  refine h.release h.nodup (funext fun x => ?_) ?_ hheld
  · rw [Function.update_apply]
    exact hgripped x
  · have hopen : (r.onOutlet (Outlets.close outlet)).openEnds = r.openEnds := rfl
    have hhandle : (r.onOutlet (Outlets.close outlet)).endHandle = r.endHandle :=
      endHandle_congr rfl
    rw [grip, grip, hhandle, hopen, List.perm_iff_count]
    intro x
    have hscreen (channel : Channel) : grips (.screen channel) = [] := by rw [← h.outlets]; rfl
    rcases outlet with c | c | _ <;> try cases c
    all_goals simp [List.count_append, hscreen]
    all_goals omega

theorem onLedger (h : r.Accounted base grips) {f : Ledger → Ledger}
    (hopen : (f r.toLedger).openEnds = r.openEnds) : (r.onLedger f).Accounted base grips :=
  h.still (r.within_still.makes_onLedger fun _ _ => trivial) hopen

theorem complete (h : r.Accounted base grips) (i : Nat) (status : Int) (pid : Option Nat) :
    (r.complete i status pid).Accounted base grips :=
  h.onLedger (f := fun l => l.complete i status pid) rfl

theorem handAll (h : r.Accounted base grips) (i : Nat) (ends : List CouplerEnd) :
    (r.handAll i ends).Accounted base grips := by
  unfold Run.handAll
  induction ends generalizing r with
  | nil => exact h
  | cons e rest ih => exact ih (h.onLedger (f := fun l => l.note (.handed e i)) rfl)

theorem attach (h : r.Accounted base grips) (streams : List (Nat × Outlet)) :
    (r.attach streams).Accounted base grips :=
  h.still (r.within_still.makes_attach fun _ _ => trivial) (by simp)

theorem spawnProgram (h : r.Accounted base grips) (i : Nat) (stage : Stage) (path : Path) :
    (r.spawnProgram i stage path).2.Accounted base grips := by
  have hroute := (r.within_still.makes_descriptorsFor i stage.redirections.merges).1
  have hopen := congrArg Ledger.openEnds (r.toLedger_descriptorsFor i stage.redirections.merges)
  unfold Run.spawnProgram
  extract_lets ends
  generalize r.descriptorsFor i stage.redirections.merges = routed at hroute hopen
  obtain ⟨r₁, descriptors, streams⟩ := routed
  have hhanded := (h.still hroute hopen).handAll i ends
  dsimp only
  generalize r₁.handAll i ends = r₂ at hhanded
  split
  · exact hhanded.closeEnds ends
  · split
    · next e _ =>
      exact (hhanded.still (r₂.within_still.makes_cannotStart i stage e) rfl).closeEnds ends
    · next process _ =>
      have hspawned := r₂.within_still.makes_onKernel
        (f := fun _ => (r₂.kernel.spawn process descriptors).2)
        (.one (.spawn _ trivial fun _ _ => trivial))
      have hstarted := ((hhanded.still hspawned rfl).onLedger
        (f := fun l => l.start i r₂.kernel.nextPid) rfl).closeEnds ends
      exact (hstarted.still (Run.within_still _ |>.makes_log ..) rfl).attach streams

theorem spawn (h : r.Accounted base grips) (i : Nat) (stage : Stage) :
    (r.spawn i stage).2.Accounted base grips := by
  unfold Run.spawn
  split
  · exact h.closeEnds _
  · exact (h.still (r.within_still.makes_notFound i stage) rfl).closeEnds _
  · exact h.spawnProgram i stage _

theorem spawnAll (h : r.Accounted base grips) (indexed : List (Stage × Nat)) :
    (Run.spawnAll indexed r).2.Accounted base grips := by
  induction indexed generalizing r with
  | nil => exact h
  | cons stage rest ih =>
    have hfirst := h.spawn stage.2 stage.1
    unfold Run.spawnAll
    split
    · next hs =>
      rw [hs] at hfirst
      exact ih hfirst
    · exact hfirst

/-- A session in which the shell holds the same. -/
theorem session (h : r.Accounted base grips) {s : Session}
    (hheld : s.world.held.Perm r.kernel.held) : Accounted base grips { r with session := s } :=
  ⟨h.nodup, h.outlets, hheld.trans h.held⟩

/-- A handle goes over from an end to a sink. -/
theorem wrapEnd (h : r.Accounted base grips) {i : Nat} (ho : .write i ∈ r.openEnds)
    (hidle : grips .next = []) :
    (r.wrapEnd i).Accounted base (Function.update grips .next [r.endHandle (.write i)]) := by
  refine ⟨h.nodup.filter _, funext fun x => ?_, h.held.trans (List.Perm.append_right base ?_)⟩
  · rw [Function.update_apply, ← h.outlets]
    exact Outlets.grippedAt_setHeldSink (by simp) (Sink.ofHandle (r.endHandle (.write i))) x
  · have hends := (perm_filter_ne h.nodup ho).map r.endHandle
    have hopen : (r.wrapEnd i).openEnds = r.openEnds.filter (· ≠ .write i) := rfl
    have hhandle : (r.wrapEnd i).endHandle = r.endHandle := endHandle_congr rfl
    rw [grip, grip, hhandle, hopen]
    rw [List.perm_iff_count] at hends ⊢
    intro x
    have hx := hends x
    simp [List.count_append, hidle, List.count_cons] at hx ⊢
    omega

theorem closeNext (h : r.Accounted base grips) {i : Nat} (ho : .write i ∉ r.openEnds) :
    (r.closeNext i).Accounted base (Function.update grips .next []) := by
  refine (h.close .next).onLedger ?_
  exact List.filter_eq_self.mpr fun e he => by simpa using fun heq : e = .write i => ho (heq ▸ he)

end Accounted

namespace Accounted

variable {capture : Builtin.Capture}

/-- A builtin leaves the ends and the sinks alone. -/
theorem runUntil (hc : Builtin.ReturnsHandles capture) (h : r.Accounted base grips) (i : Nat)
    (b : Builtin) (args : List String) (stop : Option Nat) :
    (b.runUntil (host i) capture args stop r).2.Accounted base grips := by
  have hk : (host i).Keeps capture (Accounted base grips) := {
    write := fun channel text x hx =>
      hx.still (x.within_still.makes_write (x.outletFor i channel) text) rfl
    setSession := fun s x hs hx => hx.session (.of_eq (Session.Makes.of_edited trivial hs).held)
    send := fun _ _ hx => hx.session (.of_eq rfl)
    run := fun line x hx => hx.session (hc line x.session) }
  exact Builtin.runUntil_invariant hk b args stop h

theorem callBuiltin (hc : Builtin.ReturnsHandles capture) (h : r.Accounted base grips) {i : Nat}
    (ho : r.isLast i = false → .write i ∈ r.openEnds) (hidle : grips .next = []) (stage : Stage)
    (b : Builtin) (stops : Nat → Option Nat) :
    (r.callBuiltin capture i stage b stops).2.Accounted base grips := by
  unfold Run.callBuiltin
  extract_lets r₁ r₂
  have hlength : r₁.stages.length = r.stages.length := by
    unfold r₁
    split <;> rfl
  obtain ⟨grips₁, h₁, hsame⟩ : ∃ grips₁, r₁.Accounted base grips₁ ∧
      (r.isLast i = true → grips₁ = grips) ∧ Function.update grips₁ .next [] = grips := by
    have hself : Function.update grips .next [] = grips := by rw [← hidle, Function.update_eq_self]
    unfold r₁
    split
    · exact ⟨_, h, fun _ => rfl, hself⟩
    · next hl =>
      refine ⟨_, h.wrapEnd (ho (by simpa using hl)) hidle, fun hl' => absurd hl' hl, ?_⟩
      rw [Function.update_idem, hself]
  have hran := (h₁.still (r₁.within_still.makes_log .debug ("builtin " ++ stage.command) none) rfl)
    |>.onLedger (f := fun l => l.note (.called i)) rfl |>.runUntil hc i b stage.args (stops i)
  have hledger := r₂.toLedger_runUntil i capture b stage.args (stops i)
  change (b.runUntil (host i) capture stage.args (stops i) r₂).2.Accounted base grips₁ at hran
  generalize b.runUntil (host i) capture stage.args (stops i) r₂ = ran at hran hledger
  obtain ⟨ending, r₃⟩ := ran
  have hreturned := hran.onLedger (f := fun l => l.note (.returned i ending)) rfl
  have hopen := congrArg Ledger.openEnds hledger
  change (r₃.note (.returned i ending)).openEnds = r₁.openEnds at hopen
  have hlast : (r₃.note (.returned i ending)).isLast i = r.isLast i := by
    have hstages : r₃.stages.length = r.stages.length :=
      (congrArg (fun l => l.stages.length) hledger).trans hlength
    simp [isLast, Run.note, Ledger.note, hstages]
  have hclosed : Accounted base grips (if (r₃.note (.returned i ending)).isLast i then
      (r₃.note (.returned i ending)).flush (r₃.note (.returned i ending)).wiring.out
    else (r₃.note (.returned i ending)).closeNext i) := by
    rw [hlast]
    split
    · next hl =>
      rw [hsame.1 hl] at hreturned
      exact hreturned.still (Run.within_still _ |>.makes_flush _) rfl
    · next hl =>
      have hnot : .write i ∉ (r₃.note (.returned i ending)).openEnds := by
        rw [hopen, show r₁ = r.wrapEnd i from if_neg hl]
        simp [Run.wrapEnd, Ledger.wrap, Run.onLedger, Ledger.note]
      exact hsame.2 ▸ hreturned.closeNext hnot
  exact hclosed.still (Run.within_still _ |>.makes_flush _) rfl

theorem runBuiltin (hc : Builtin.ReturnsHandles capture) (h : r.Accounted base grips) {i : Nat}
    (ho : r.isLast i = false → .write i ∈ r.openEnds) (hidle : grips .next = []) (stage : Stage)
    (b : Builtin) (stops : Nat → Option Nat) :
    (r.runBuiltin capture i stage b stops).2.Accounted base grips := by
  have hcalled := h.callBuiltin hc ho hidle stage b stops
  unfold Run.runBuiltin
  split <;> next hcall =>
    rw [hcall] at hcalled
    first
    | exact hcalled
    | exact hcalled.complete ..

theorem runBuiltins (hc : Builtin.ReturnsHandles capture) (stops : Nat → Option Nat)
    {W : List Handle → Prop} {done todo : List Stage} (hstages : r.stages = done ++ todo)
    (hh : r.Holding W (callEnds r.stages done.length)) (h : r.Accounted base grips)
    (hidle : grips .next = []) :
    (Run.runBuiltins capture (todo.zipIdx done.length) r stops).2.Accounted base grips := by
  induction todo generalizing r done with
  | nil => exact h
  | cons stage rest ih =>
    rw [List.zipIdx_cons]
    have hstage : r.stages[done.length]? = some stage := by simp [hstages]
    have hdone : (done ++ [stage]).length = done.length + 1 := by simp
    have hbuiltin : isBuiltinAt r.stages done.length ↔ stage.isBuiltin := by
      simp [isBuiltinAt, hstage]
    cases htarget : stage.target with
    | program path =>
      have hb : ¬ isBuiltinAt r.stages done.length := by simp [hbuiltin, Stage.isBuiltin, htarget]
      simp only [Run.runBuiltins, htarget]
      rw [← hdone]
      exact ih (by simp [hstages]) (hdone ▸ hh.congr (callEnds_succ_program hb)) h
    | builtin b =>
      have hb : isBuiltinAt r.stages done.length :=
        hbuiltin.mpr (by simp [Stage.isBuiltin, htarget])
      have ho (hl : r.isLast done.length = false) : .write done.length ∈ r.openEnds := by
        have hne : done.length + 1 ≠ r.stages.length := by simpa [isLast] using hl
        have hlt := (List.getElem?_eq_some_iff.mp hstage).1
        exact (hh.mem_openEnds _).mpr ⟨by omega, Nat.le_refl _, hb⟩
      have hnext := holding_runBuiltin stage b capture stops hb hh
      have hkeep := r.stages_runBuiltin capture done.length stage b stops
      have hran := h.runBuiltin hc ho hidle stage b stops
      rcases hrun : r.runBuiltin capture done.length stage b stops with ⟨_ | halt, r'⟩ <;>
        simp only [hrun] at hnext hkeep hran <;> simp only [Run.runBuiltins, htarget, hrun]
      · rw [← hkeep, ← hdone] at hnext
        rw [← hdone]
        exact ih (by simp [hkeep, hstages]) hnext hran
      · exact hran

/-- What happens while the shell waits changes nothing. -/
theorem join (h : r.Accounted base grips) : r.join.Accounted base grips := by
  refine h.still (r.within_still.makes_join fun _ _ => trivial) ?_
  exact join_invariant (P := fun l => l.openEnds = r.openEnds) (fun _ _ _ _ h => h) rfl

theorem interruptBuiltins (h : r.Accounted base grips) (indexed : List (Stage × Nat)) :
    (r.interruptBuiltins indexed).Accounted base grips := by
  induction indexed generalizing r with
  | nil => exact h
  | cons stage rest ih =>
    refine ih ?_
    split
    · refine h.onLedger (f := fun l => l.completePending stage.2 statusInterrupted) ?_
      unfold Ledger.completePending
      split <;> rfl
    · exact h

/-- At the end of a run the files are closed, and no end is open. -/
theorem tidy (h : r.Accounted base grips) :
    r.tidy.Accounted base (Function.update (Function.update grips (.file .out) [])
      (.file .err) []) := by
  have hfiles := (h.closeAll.close (.file .out)).close (.file .err)
  have hout := hfiles.still (Run.within_still _ |>.makes_flush (.screen .out)) rfl
  exact hout.still (Run.within_still _ |>.makes_flush (.screen .err)) rfl

/-- What belonged to a run has been let go of at its end. -/
theorem held_tidy (h : r.Accounted base grips) (hidle : grips .next = [])
    (hclosed : r.closeAll.openEnds = []) : r.tidy.kernel.held.Perm base := by
  simpa [grip, hclosed, hidle, Function.update_apply] using h.tidy.held

end Accounted

theorem held_addPipes (n : Nat) (k : Kernel) :
    (addPipes n k).1.length = n ∧
      (addPipes n k).2.held.Perm
        (((addPipes n k).1.flatMap fun pipe => [Handle.reader pipe, .writer pipe]) ++ k.held) := by
  induction n generalizing k with
  | zero => exact ⟨rfl, .refl _⟩
  | succ n ih =>
    obtain ⟨hlength, hheld⟩ :=
      ih ((k.addPipe.2.hold (.reader k.nextNumber)).hold (.writer k.nextNumber))
    refine ⟨congrArg (· + 1) hlength, hheld.trans ?_⟩
    have hk : ((k.addPipe.2.hold (.reader k.nextNumber)).hold (.writer k.nextNumber)).held =
      .writer k.nextNumber :: .reader k.nextNumber :: k.held := rfl
    rw [hk, List.perm_iff_count]
    intro x
    simp only [addPipes, Kernel.addPipe, List.flatMap_cons, List.count_append, List.count_cons,
      List.count_nil]
    omega

/-- The ends of the couplers lead to the pipes. -/
theorem map_endHandle_couplerEnds (r : Run) :
    (Ledger.couplerEnds r.couplers.length).map r.endHandle =
      r.couplers.flatMap fun pipe => [Handle.reader pipe, .writer pipe] := by
  have hpipes (pipes : List Nat) :
      (List.range pipes.length).flatMap (fun i =>
        [(pipes[i]?.map Handle.reader).getD .null, (pipes[i]?.map Handle.writer).getD .null]) =
        pipes.flatMap fun pipe => [Handle.reader pipe, .writer pipe] := by
    induction pipes with
    | nil => rfl
    | cons pipe rest ih =>
      rw [List.length_cons, List.range_succ_eq_map, List.flatMap_cons, List.flatMap_map,
        List.flatMap_cons]
      simpa using ih
  rw [← hpipes, Ledger.couplerEnds, List.map_flatMap]
  rfl

/-- What belongs to a run at its start. -/
theorem accounted_init {s : Session} {wiring : Wiring} (stages : List Stage)
    (hs : s.world.held.Perm ((wiring.outlets.grippedAt (.file .out) ++
      wiring.outlets.grippedAt (.file .err)) ++ base))
    (hnext : wiring.outlets.grippedAt .next = []) :
    (init s stages wiring).Accounted base wiring.outlets.grippedAt := by
  obtain ⟨hlength, hheld⟩ := held_addPipes (stages.length - 1) s.world.toKernel
  refine ⟨Ledger.nodup_couplerEnds _, rfl, ?_⟩
  have hends : (init s stages wiring).openEnds.map (init s stages wiring).endHandle =
      (addPipes (stages.length - 1) s.world.toKernel).1.flatMap
        fun pipe => [Handle.reader pipe, .writer pipe] := by
    refine (congrArg (fun n => (Ledger.couplerEnds n).map _) hlength.symm).trans ?_
    exact map_endHandle_couplerEnds (init s stages wiring)
  rw [grip, hends, hnext]
  refine hheld.trans ?_
  rw [List.append_assoc]
  exact (by simpa using hs : s.world.held.Perm _).append_left _

end Run

/-- A file that is opened is held for its outlet. -/
theorem held_openTarget {s s' : Session} {channel : Channel} {target : FileTarget} {o o' : Outlets}
    (ho : openTarget s channel target o = .ok (o', s')) :
    ∃ h, s'.world.held = h :: s.world.held ∧
      ∀ outlet, o'.grippedAt outlet = if outlet = .file channel then [h]
        else o.grippedAt outlet := by
  obtain ⟨h, k, hopen, rfl, rfl⟩ := openTarget_eq_ok ho
  refine ⟨h, congrArg (h :: ·) (Kernel.SameTasks.openText hopen).held, fun outlet => ?_⟩
  exact Outlets.grippedAt_setHeldSink (by simp) (Sink.ofHandle h) outlet

/-- What the shell holds once the files of the last stage are open, or could not be opened. -/
def FilesHeld (base : List Handle) (opened : Except Fault Wiring × Session) : Prop :=
  match opened.1 with
  | .ok wiring =>
    opened.2.world.held.Perm ((wiring.outlets.grippedAt (.file .out) ++
      wiring.outlets.grippedAt (.file .err)) ++ base) ∧ wiring.outlets.grippedAt .next = []
  | .error _ => opened.2.world.held.Perm base

theorem filesHeld_openErrors {s : Session} {o : Outlets} {base : List Handle}
    (hs : s.world.held.Perm (o.grippedAt (.file .out) ++ base))
    (herr : o.grippedAt (.file .err) = []) (hnext : o.grippedAt .next = [])
    (err : Option ErrorTarget) (out : Outlet) : FilesHeld base (openErrors s err out o) := by
  unfold openErrors
  split
  · exact ⟨by simpa [herr] using hs, hnext⟩
  · exact ⟨by simpa [herr] using hs, hnext⟩
  · split
    · change (Outlets.close (.file .out) o s).2.world.held.Perm base
      rw [(Outlets.held_close (.file .out) o s).1]
      exact perm_diff hs
    · next ho =>
      obtain ⟨h, hheld, hgripped⟩ := held_openTarget ho
      refine ⟨?_, by rw [hgripped, if_neg (by simp), hnext]⟩
      dsimp only
      rw [hheld, hgripped, hgripped, if_neg (by simp), if_pos rfl]
      refine (hs.cons h).trans ?_
      simpa using List.perm_middle.symm

theorem filesHeld_openRedirections (s : Session) (r : Redirections) :
    FilesHeld s.world.held (openRedirections s r) := by
  have hnone (outlet : Outlet) : (Outlets.ofSession s).grippedAt outlet = [] := by
    rcases outlet with c | c | _ <;> try cases c
    all_goals rfl
  unfold openRedirections
  split
  · exact filesHeld_openErrors (by simp [hnone]) (hnone _) (hnone _) _ _
  · split
    · exact .refl _
    · next ho =>
      obtain ⟨h, hheld, hgripped⟩ := held_openTarget ho
      refine filesHeld_openErrors ?_ ?_ ?_ _ _
      · simp [hheld, hgripped]
      · simp [hgripped, hnone]
      · simp [hgripped, hnone]

/-- How a run treats its coupler ends: at its end all have been closed, and whenever it waited it
held what it held when its files were open. -/
structure Discharged (s : Session) (stages : List Stage) (base : List Handle)
    (o : Outcome) : Prop where
  held : o.session.world.held.Perm base
  ledger : ∃ l : Ledger, l.history = o.history ∧ l.stages = stages ∧
    l.Holding (fun held => held.Perm s.world.held) fun _ => False

namespace Run

/-- A run that comes to its end: the shell has let go of what belonged to the run. -/
theorem discharged_tidy {s : Session} {base : List Handle} {grips : Outlet → List Handle} {r : Run}
    {P : CouplerEnd → Prop} (hh : r.Holding (fun held => held.Perm s.world.held) P)
    (ha : r.Accounted base grips) (hidle : grips .next = []) (ending : Except Halt Int) :
    Discharged s r.stages base (r.tidy.outcome ending) := by
  have hall := holding_closeAll hh
  have hnone : r.closeAll.openEnds = [] :=
    List.eq_nil_iff_forall_not_mem.mpr fun e he => (hall.mem_openEnds e).mp he
  exact ⟨ha.held_tidy hidle hnone, r.closeAll.toLedger, rfl, r.stages_closeEnds r.openEnds, hall⟩

/-- What the programs do by themselves afterwards changes nothing. -/
theorem discharged_abandon {s : Session} {stages : List Stage} {base : List Handle} {r : Run}
    {ending : Except Halt Int} (h : Discharged s stages base (r.outcome ending)) :
    Discharged s stages base (r.abandon.outcome ending) :=
  ⟨(r.within_still.makes_abandon).session.held ▸ h.held, h.ledger⟩

/-- A run in which the shell holds no end may wait. -/
theorem holding_join {s : Session} {base : List Handle} {grips : Outlet → List Handle} {r : Run}
    (hh : r.Holding (fun held => held.Perm s.world.held) fun _ => False)
    (ha : r.Accounted base grips) (hidle : grips .next = [])
    (hs : s.world.held.Perm ((grips (.file .out) ++ grips (.file .err)) ++ base)) :
    r.join.Holding (fun held => held.Perm s.world.held) fun _ => False := by
  have hnone : r.openEnds = [] :=
    List.eq_nil_iff_forall_not_mem.mpr fun e he => (hh.mem_openEnds e).mp he
  have hheld : r.kernel.held.Perm s.world.held := by
    refine ha.held.trans (List.Perm.trans ?_ hs.symm)
    simp [grip, hnone, hidle]
  exact join_invariant (P := fun l => l.Holding (fun held => held.Perm s.world.held) fun _ => False)
    (fun _ job exit _ hl => hl.finish job exit) (hh.wait (fun _ => id) hheld)

end Run

theorem discharged_runWired {capture : Builtin.Capture} (hc : Builtin.ReturnsHandles capture)
    {s : Session} {wiring : Wiring} {base : List Handle}
    (hw : FilesHeld base (.ok wiring, s)) (stages : List Stage)
    (stops : Nat → Option Nat := fun _ => none) :
    Discharged s stages base (runWired capture s stages wiring stops) := by
  obtain ⟨hs, hidle⟩ := hw
  have hinit : (Run.init s stages wiring).Holding (fun held => held.Perm s.world.held)
      (Run.startEnds stages 0) :=
    (Ledger.holding_ofStages _ stages).congr fun e => Run.startEnds_zero e
  have hspawned := (Run.accounted_init stages hs hidle).spawnAll stages.zipIdx
  have hstages := Run.stages_spawnAll stages.zipIdx (Run.init s stages wiring)
  unfold runWired
  extract_lets indexed
  split
  · next r hr =>
    rw [hr] at hspawned hstages
    replace hstages : r.stages = stages := hstages
    obtain ⟨P, hh, -⟩ := Run.holding_starts rfl hinit hr
    rw [← hstages]
    exact Run.discharged_abandon (Run.discharged_tidy hh hspawned hidle _)
  · next r hr =>
    rw [hr] at hspawned hstages
    replace hstages : r.stages = stages := hstages
    obtain ⟨P, hh, hP⟩ := Run.holding_starts rfl hinit hr
    rw [hP rfl] at hh
    have hran :=
      hspawned.runBuiltins hc stops (show r.stages = [] ++ stages from hstages) (hstages ▸ hh)
      hidle
    have hkept := Run.stages_runBuiltins capture stages.zipIdx r stops
    change (Run.runBuiltins capture stages.zipIdx r stops).2.Accounted base _ at hran
    split
    · next r' hr' =>
      rw [hr'] at hkept hran
      obtain ⟨Q, hh', hQ⟩ := Run.holding_calls hstages hh hr'
      have hidle' := hh'.congr fun e => iff_of_false (hQ rfl e) id
      have hjoin := Run.holding_join hidle' hran hidle hs
      have hend := Run.discharged_tidy hjoin hran.join hidle (.ok r'.join.tidy.lastStatus)
      rwa [Run.stages_join, hkept.trans hstages] at hend
    · next r' hr' =>
      rw [hr'] at hkept hran
      obtain ⟨Q, hh', -⟩ := Run.holding_calls hstages hh hr'
      have hclosed := Run.holding_closeAll (Run.holding_interruptBuiltins hh' indexed)
      have hmarked := (hran.interruptBuiltins indexed).closeAll
      have hsent := hmarked.still (Run.within_still _).makes_interruptPrograms rfl
      have hjoin := Run.holding_join (r := Run.interruptPrograms _) hclosed hsent hidle hs
      have hend := Run.discharged_tidy hjoin hsent.join hidle (.error .interrupt)
      have hstages' : ((r'.interruptBuiltins indexed).closeAll.interruptPrograms).join.stages =
          stages := by
        rw [Run.stages_join]
        refine (Run.stages_closeEnds _ _).trans ?_
        rw [Run.stages_interruptBuiltins]
        exact hkept.trans hstages
      rwa [hstages'] at hend
    · next r' _ hr' =>
      rw [hr'] at hkept hran
      obtain ⟨Q, hh', -⟩ := Run.holding_calls hstages hh hr'
      have hend := Run.discharged_tidy hh' hran hidle (.error ‹_›)
      rw [← hstages, ← hkept]
      exact Run.discharged_abandon hend

/-- A run gives back all handles that it takes. -/
theorem held_run {capture : Builtin.Capture} (hc : Builtin.ReturnsHandles capture) (s : Session)
    (stages : List Stage) (stops : Nat → Option Nat := fun _ => none) :
    (run capture s stages stops).session.world.held.Perm s.world.held := by
  unfold run
  split
  · exact .refl _
  · next last _ =>
    have hopened := filesHeld_openRedirections s last.redirections
    split <;> next ho =>
      rw [ho] at hopened
      first
      | exact (discharged_runWired hc hopened stages stops).held
      | exact hopened

end Pipeline

/-- After a line has been run for a chat model the shell holds what it held before. -/
theorem Shell.returnsHandles_capture (depth : Nat) : Builtin.ReturnsHandles (capture depth) := by
  intro line s
  induction depth generalizing line s with
  | zero => exact .refl _
  | succ depth ih =>
    have hrun (stages : List Stage) : (captureStages (capture depth) s stages).2.world.held.Perm
        s.world.held := by
      have hheld := Pipeline.held_run ih { s with screen := [], direct := false } stages
      unfold captureStages
      dsimp only
      split <;> exact hheld
    unfold capture
    split
    · split
      · exact .refl _
      · exact .refl _
      · exact hrun _
    · exact .refl _

end CommandShell
