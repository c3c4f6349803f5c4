import CommandShell.Proofs.Kernel.Move

/-!
# What a request changes

A task that makes a request stays who it is. What the shell holds does not change, numbers are only
used up, and the other tasks change in one of four ways.

## Main statements

- `Kernel.step_follows`: what every request has in common.
- `Kernel.Moves.advances`: moves use up numbers and leave the patience alone.
- `Kernel.Moves.held_eq`: only moves that may grip change what the shell holds.
-/

namespace CommandShell.Kernel

/-- How a request of a task changes the other tasks. -/
inductive Stirs (t : Task) (k k' : Kernel) : Prop where
  | nothing (htasks : k'.tasks = k.tasks) (hpid : k'.nextPid = k.nextPid)
  | fork (child : Task) (hchild : child.pid = k.nextPid) (hparent : child.parent = t.pid)
    (hrunning : child.ended = t.ended) (htasks : k'.tasks = k.tasks ++ [child])
    (hpid : k'.nextPid = k.nextPid + 1)
  | reap (child : Task) (hmem : child ∈ k.tasks) (hparent : child.parent = t.pid)
    (htasks : k'.tasks = k.tasks.filter fun u => u.pid ≠ child.pid) (hpid : k'.nextPid = k.nextPid)
  | send (pid signal : Nat) (htasks : k'.tasks = (k.send pid signal).tasks)
    (hpid : k'.nextPid = k.nextPid)

/-- What every request has in common. -/
structure Request (k : Kernel) (t : Task) (k' : Kernel) (t' : Task) : Prop where
  held : k'.held = k.held
  patience : k'.patience = k.patience
  number : k.nextNumber ≤ k'.nextNumber
  pid : t'.pid = t.pid
  parent : t'.parent = t.parent
  ended : t'.ended = t.ended
  stirs : Stirs t k k'

/-- A system in which files, pipes and what has come out of taps may be different. -/
structure SameTasks (k k' : Kernel) : Prop where
  held : k'.held = k.held
  patience : k'.patience = k.patience
  number : k.nextNumber ≤ k'.nextNumber
  tasks : k'.tasks = k.tasks
  nextPid : k'.nextPid = k.nextPid

namespace SameTasks

variable {k k' k'' : Kernel}

theorem refl (k : Kernel) : SameTasks k k := ⟨rfl, rfl, Nat.le_refl _, rfl, rfl⟩

theorem trans (h : SameTasks k k') (g : SameTasks k' k'') : SameTasks k k'' :=
  ⟨g.held.trans h.held, g.patience.trans h.patience, Nat.le_trans h.number g.number,
    g.tasks.trans h.tasks, g.nextPid.trans h.nextPid⟩

/-- A request that leaves the other tasks alone. -/
theorem request (h : SameTasks k k') {t t' : Task} (hpid : t'.pid = t.pid)
    (hparent : t'.parent = t.parent) (hended : t'.ended = t.ended) : Request k t k' t' :=
  ⟨h.held, h.patience, h.number, hpid, hparent, hended, .nothing h.tasks h.nextPid⟩

theorem release (k : Kernel) (apart : List Handle) (h : Handle) :
    SameTasks k (k.release apart h) := by
  unfold Kernel.release
  extract_lets isHeld
  split
  · split
    · exact refl k
    · exact ⟨rfl, rfl, Nat.le_refl _, rfl, rfl⟩
  · split
    · exact refl k
    · exact ⟨rfl, rfl, Nat.le_refl _, rfl, rfl⟩
  · split
    · exact refl k
    · exact ⟨rfl, rfl, Nat.le_refl _, rfl, rfl⟩
  · exact refl k

theorem releaseAll (k : Kernel) (apart hs : List Handle) : SameTasks k (k.releaseAll apart hs) := by
  unfold Kernel.releaseAll
  induction hs generalizing k with
  | nil => exact refl k
  | cons h rest ih => exact (release k apart h).trans (ih _)

theorem writeFile (k : Kernel) (n : Nat) (bytes : ByteArray) :
    SameTasks k (k.writeFile n bytes) := by
  unfold Kernel.writeFile
  split <;> exact ⟨rfl, rfl, Nat.le_refl _, rfl, rfl⟩

theorem openText {base : Place} {text : String} {access : Access} {h : Handle}
    (ho : k.openText base text access = .ok (h, k')) : SameTasks k k' := by
  unfold Kernel.openText at ho
  extract_lets opened taken at ho
  repeat' split at ho
  all_goals cases ho
  all_goals first
    | exact refl k
    | exact ⟨rfl, rfl, Nat.le_succ _, rfl, rfl⟩

theorem openFor {t : Task} {base : Place} {text : String} {access : Access} {h : Handle}
    (ho : k.openFor t base text access = .ok (h, k')) : SameTasks k k' := by
  unfold Kernel.openFor Kernel.reopen at ho
  repeat' split at ho
  all_goals first
    | exact openText ho
    | cases ho
  all_goals exact refl k

theorem readHandle {t : Task} {h : Handle} {limit : Nat} {line : Bool} {b : ByteArray}
    (hr : k.readHandle t h limit line = .bytes b k') : SameTasks k k' := by
  unfold Kernel.readHandle at hr
  dsimp only at hr
  repeat' split at hr
  all_goals cases hr
  all_goals exact ⟨rfl, rfl, Nat.le_refl _, rfl, rfl⟩

end SameTasks

theorem redirect_sameTasks (k : Kernel) (t : Task) (descriptor : Nat) (h : Option Handle) :
    SameTasks k (k.redirect t descriptor h).1 := by
  unfold redirect
  dsimp only
  split
  · exact .release ..
  · exact .refl k

theorem redirect_who (k : Kernel) (t : Task) (descriptor : Nat) (h : Option Handle) :
    (k.redirect t descriptor h).2.pid = t.pid ∧ (k.redirect t descriptor h).2.parent = t.parent ∧
      (k.redirect t descriptor h).2.ended = t.ended := by
  cases h <;> exact ⟨rfl, rfl, rfl⟩

/-- The task that a signal has reached. -/
def Effect.task : Effect → Task
  | .remains t | .dies t _ => t

/-- A task that a signal reaches stays who it is. -/
theorem affect_who (t : Task) (signal : Nat) :
    (affect t signal).task.pid = t.pid ∧ (affect t signal).task.parent = t.parent ∧
      (affect t signal).task.ended = t.ended := by
  unfold affect
  dsimp only
  repeat' split
  all_goals exact ⟨rfl, rfl, rfl⟩

/-- The system as a task that has made a request has left it. -/
def Turn.kernel : Turn → Kernel
  | .goesOn k _ | .waits k _ | .ends k _ _ => k

/-- The task after its request. -/
def Turn.task : Turn → Task
  | .goesOn _ t | .waits _ t | .ends _ t _ => t

theorem Turn.result_eq (turn : Turn) :
    turn.result = turn.kernel.putBack turn.task ∨
      ∃ e, turn.result = turn.kernel.finish turn.task e := by
  cases turn with
  | goesOn k t => exact .inl rfl
  | waits k t => exact .inl rfl
  | ends k t e => exact .inr ⟨e, rfl⟩

/-- A turn in which a request was made. -/
abbrev Turn.Follows (turn : Turn) (k : Kernel) (t : Task) : Prop :=
  Request k t turn.kernel turn.task

theorem SameTasks.proceed {k k' : Kernel} (h : SameTasks k k') {t t' : Task} (process : Process)
    (hwho : t'.pid = t.pid ∧ t'.parent = t.parent ∧ t'.ended = t.ended) :
    (Turn.proceed k' t' process).Follows k t :=
  h.request hwho.1 hwho.2.1 hwho.2.2

/-- A request that a task makes of nobody. -/
theorem proceed_self (k : Kernel) (t : Task) (process : Process) :
    (Turn.proceed k t process).Follows k t :=
  (SameTasks.refl k).proceed process ⟨rfl, rfl, rfl⟩

theorem waits_self (k : Kernel) (t : Task) : (Turn.waits k t).Follows k t :=
  (SameTasks.refl k).request rfl rfl rfl

/-- A signal that a task sends to itself. -/
theorem affect_follows (k : Kernel) (t : Task) (signal : Nat) (next : Process) :
    (match affect t signal with
      | .remains t => Turn.proceed k t next
      | .dies t signal => .ends k t (.killed signal)).Follows k t := by
  have hwho := affect_who t signal
  split <;> next ha =>
    rw [ha] at hwho
    exact (SameTasks.refl k).request hwho.1 hwho.2.1 hwho.2.2

theorem writePipe_follows (k : Kernel) (t : Task) (n d : Nat) (bytes : ByteArray)
    (next : Except Errno Unit → Process) : (k.writePipe t n d bytes next).Follows k t := by
  have hset (content : ByteArray) : SameTasks k (k.setPipe n content) :=
    ⟨rfl, rfl, Nat.le_refl _, rfl, rfl⟩
  unfold writePipe
  dsimp only
  split
  · exact proceed_self ..
  · split
    · exact affect_follows ..
    · split
      · exact waits_self ..
      · split <;> exact (hset _).proceed _ ⟨rfl, rfl, rfl⟩

theorem writeHandle_follows (k : Kernel) (t : Task) (h : Handle) (d : Nat) (bytes : ByteArray)
    (next : Except Errno Unit → Process) : (k.writeHandle t h d bytes next).Follows k t := by
  unfold writeHandle
  split
  · exact proceed_self ..
  · extract_lets spilled
    have hspilled : SameTasks k { k with spilled } := ⟨rfl, rfl, Nat.le_refl _, rfl, rfl⟩
    exact hspilled.proceed _ ⟨rfl, rfl, rfl⟩
  · split
    · exact (SameTasks.writeFile ..).proceed _ ⟨rfl, rfl, rfl⟩
    · exact proceed_self ..
  · exact writePipe_follows ..
  · exact proceed_self ..

/-- What every request of a task has in common. -/
theorem step_follows (k : Kernel) (t : Task) : (k.step t).Follows k t := by
  have hredirect (k' : Kernel) (h : SameTasks k k') (d : Nat) (target : Option Handle)
      (process : Process) : (Turn.proceed (k'.redirect t d target).1 (k'.redirect t d target).2
        process).Follows k t :=
    (h.trans (redirect_sameTasks k' t d target)).proceed process (redirect_who k' t d target)
  unfold step
  split
  · exact (SameTasks.refl k).request rfl rfl rfl
  · exact waits_self ..
  · exact proceed_self ..
  · split
    · exact proceed_self ..
    · split
      · next hr => exact (SameTasks.readHandle hr).proceed _ ⟨rfl, rfl, rfl⟩
      · exact proceed_self ..
      · split
        · exact waits_self ..
        · exact proceed_self ..
  · split
    · exact proceed_self ..
    · split
      · next hr => split <;> exact (SameTasks.readHandle hr).proceed _ ⟨rfl, rfl, rfl⟩
      · exact proceed_self ..
      · exact waits_self ..
  · split
    · exact proceed_self ..
    · exact writeHandle_follows ..
  · next d next _ =>
    split
    · exact proceed_self ..
    · next h k' ho => exact hredirect k' (SameTasks.openFor ho) d (some h) (next (.ok ()))
  · next source d next _ =>
    split
    · exact proceed_self ..
    · next h _ => exact hredirect k (.refl k) d (some h) (next (.ok ()))
  · next d next _ => exact hredirect k (.refl k) d none (next ())
  · next reader writer next _ =>
    have hpipe : SameTasks k k.addPipe.2 := ⟨rfl, rfl, Nat.le_succ _, rfl, rfl⟩
    generalize k.addPipe = made at hpipe
    obtain ⟨n, k₁⟩ := made
    have h₁ := redirect_sameTasks k₁ t reader (some (.reader n))
    have hwho₁ := redirect_who k₁ t reader (some (.reader n))
    dsimp only at hpipe ⊢
    generalize k₁.redirect t reader (some (.reader n)) = changed at h₁ hwho₁
    obtain ⟨k₂, t₂⟩ := changed
    have hwho₂ := redirect_who k₂ t₂ writer (some (.writer n))
    exact ((hpipe.trans h₁).trans (redirect_sameTasks k₂ t₂ writer (some (.writer n)))).proceed _
      ⟨hwho₂.1.trans hwho₁.1, hwho₂.2.1.trans hwho₁.2.1, hwho₂.2.2.trans hwho₁.2.2⟩
  · exact proceed_self ..
  · next child next _ =>
    exact ⟨rfl, rfl, Nat.le_refl _, rfl, rfl, rfl, .fork
      { t with pid := k.nextPid, parent := t.pid, process := child, pending := [], wakeAt := none }
      rfl rfl rfl rfl rfl⟩
  · next patience next _ =>
    extract_lets children
    split
    · next pid e hfound =>
      obtain ⟨child, hmem, hended⟩ := List.exists_of_findSome?_eq_some hfound
      obtain ⟨hin, hparent⟩ := List.mem_filter.mp hmem
      have hpid : child.pid = pid := by
        obtain ⟨x, -, hx⟩ := Option.map_eq_some_iff.mp hended
        exact (Prod.mk.inj hx).1
      subst hpid
      exact ⟨rfl, rfl, Nat.le_refl _, rfl, rfl, rfl,
        .reap child hin (by simpa using hparent) rfl rfl⟩
    · split
      · exact proceed_self ..
      · split
        · exact proceed_self ..
        · exact waits_self ..
  · split
    · exact (SameTasks.refl k).request rfl rfl rfl
    · split
      · exact (SameTasks.refl k).request rfl rfl rfl
      · exact waits_self ..
  · next pid signal next _ =>
    split
    · exact affect_follows ..
    · split
      · exact ⟨rfl, rfl, Nat.le_refl _, rfl, rfl, rfl, .send pid signal rfl rfl⟩
      · exact proceed_self ..
  · next signal disposition next _ =>
    exact (SameTasks.refl k).proceed _ (by cases disposition <;> exact ⟨rfl, rfl, rfl⟩)
  · exact (SameTasks.refl k).request rfl rfl rfl
  · dsimp only
    have hclock : SameTasks k { k with clock := k.clock + loadTime } :=
      ⟨rfl, rfl, Nat.le_refl _, rfl, rfl⟩
    exact (hclock.trans (.releaseAll ..)).request rfl rfl rfl
  · exact proceed_self ..

theorem Stirs.nextPid_le {t : Task} {k k' : Kernel} (h : Stirs t k k') :
    k.nextPid ≤ k'.nextPid := by
  cases h <;> omega

theorem held_finish (k : Kernel) (t : Task) (e : Exit) : (k.finish t e).held = k.held := by
  unfold finish
  extract_lets k₁ k₂ k₃
  have h₃ : k₃.held = k.held := by
    unfold k₃
    split <;> rfl
  exact (SameTasks.releaseAll k₃ [] t.handles).held.trans h₃

/-- What all moves have in common: the patience stays, and numbers are used up. -/
structure Advances (k k' : Kernel) : Prop where
  patience : k'.patience = k.patience
  nextPid : k.nextPid ≤ k'.nextPid
  nextNumber : k.nextNumber ≤ k'.nextNumber

namespace Advances

theorem refl (k : Kernel) : Advances k k := ⟨rfl, Nat.le_refl _, Nat.le_refl _⟩

theorem trans {k k' k'' : Kernel} (h : Advances k k') (g : Advances k' k'') : Advances k k'' :=
  ⟨g.patience.trans h.patience, Nat.le_trans h.nextPid g.nextPid,
    Nat.le_trans h.nextNumber g.nextNumber⟩

theorem of_sameTasks {k k' : Kernel} (h : SameTasks k k') : Advances k k' :=
  ⟨h.patience, Nat.le_of_eq h.nextPid.symm, h.number⟩

theorem finish (k : Kernel) (t : Task) (e : Exit) : Advances k (k.finish t e) := by
  unfold Kernel.finish
  extract_lets k₁ k₂ k₃
  have h₃ : Advances k k₃ := by
    unfold k₃
    split <;> exact ⟨rfl, Nat.le_refl _, Nat.le_refl _⟩
  exact h₃.trans (of_sameTasks (.releaseAll ..))

theorem take {k k' : Kernel} {pid : Nat} {t : Task} (h : k.take pid = some (t, k')) :
    Advances k k' ∧ k'.held = k.held := by
  obtain ⟨u, -, hu⟩ := Option.map_eq_some_iff.mp h
  obtain ⟨-, rfl⟩ := Prod.mk.inj hu
  exact ⟨⟨rfl, Nat.le_refl _, Nat.le_refl _⟩, rfl⟩

theorem step (k : Kernel) (t : Task) : Advances (k.putBack t) (k.step t).result := by
  have h := step_follows k t
  have hadvance : Advances k (k.step t).kernel := ⟨h.patience, h.stirs.nextPid_le, h.number⟩
  obtain hr | ⟨e, hr⟩ := (k.step t).result_eq
  · rw [hr]
    exact ⟨hadvance.patience, hadvance.nextPid, hadvance.nextNumber⟩
  · rw [hr]
    have hfinish := hadvance.trans (finish _ (k.step t).task e)
    exact ⟨hfinish.patience, hfinish.nextPid, hfinish.nextNumber⟩

end Advances

theorem Move.advances {σ : Scope} {k k' : Kernel} (h : Move σ k k') : Advances k k' := by
  cases h with
  | take htake =>
    have htaken := (Advances.take htake).1
    exact ⟨htaken.patience, htaken.nextPid, htaken.nextNumber⟩
  | step k t => exact .step k t
  | finish htake _ e => exact (Advances.take htake).1.trans (.finish _ _ e)
  | write _ bytes => exact .of_sameTasks (.writeFile ..)
  | @letGo k h _ _ =>
    have hdrop : SameTasks { k with held := k.held.erase h } (k.letGo h) := .release ..
    exact ⟨hdrop.patience, Nat.le_of_eq hdrop.nextPid.symm, hdrop.number⟩
  | «open» | pipe | number => exact ⟨rfl, Nat.le_refl _, Nat.le_succ _⟩
  | spawn => exact ⟨rfl, Nat.le_succ _, Nat.le_refl _⟩
  | _ => exact ⟨rfl, Nat.le_refl _, Nat.le_refl _⟩

theorem Moves.advances {σ : Scope} {k k' : Kernel} (h : Moves σ k k') : Advances k k' :=
  h.invariant (fun _ _ hmove hk => hk.trans hmove.advances) (.refl k)

/-- The shell holds what it held before, but for a handle that it takes hold of or lets go of. -/
theorem Move.held_cases {σ : Scope} {k k' : Kernel} (h : Move σ k k') :
    k'.held = k.held ∨ (σ.grips ∧ ∃ x, σ.touches x ∧
      (k'.held = x :: k.held ∨ k'.held = k.held.erase x)) := by
  cases h with
  | take htake => exact .inl (Advances.take htake).2
  | step k t =>
    have h := (step_follows k t).held
    obtain hr | ⟨e, hr⟩ := (k.step t).result_eq
    · exact .inl (hr ▸ h)
    · exact .inl (hr ▸ (held_finish _ _ e).trans h)
  | finish htake _ e => exact .inl ((held_finish _ _ e).trans (Advances.take htake).2)
  | write => exact .inl (SameTasks.writeFile ..).held
  | @hold _ x hg ht => exact .inr ⟨hg, x, ht, .inl rfl⟩
  | @letGo _ x hg ht => exact .inr ⟨hg, x, ht, .inr (SameTasks.release ..).held⟩
  | _ => exact .inl rfl

theorem Move.held_eq {σ : Scope} (hσ : ¬ σ.grips) {k k' : Kernel} (h : Move σ k k') :
    k'.held = k.held :=
  h.held_cases.elim id fun hg => absurd hg.1 hσ

/-- What the shell holds it does not lose unless it may be touched. -/
theorem Moves.mem_held {σ : Scope} {x : Handle} (hσ : ¬ σ.touches x) {k k' : Kernel}
    (h : Moves σ k k') (hx : x ∈ k.held) : x ∈ k'.held := by
  refine h.invariant (P := fun k => x ∈ k.held) (fun k k' hmove hk => ?_) hx
  obtain heq | ⟨-, y, hy, heq | heq⟩ := hmove.held_cases
  · exact heq ▸ hk
  · exact heq ▸ List.mem_cons_of_mem _ hk
  · have hne : x ≠ y := fun h => hσ (h ▸ hy)
    exact heq ▸ (List.mem_erase_of_ne hne).mpr hk

/-- Only moves that may take hold of handles and let go of them change what the shell holds. -/
theorem Moves.held_eq {σ : Scope} (hσ : ¬ σ.grips) {k k' : Kernel} (h : Moves σ k k') :
    k'.held = k.held :=
  h.invariant (P := fun x => x.held = k.held) (fun _ _ hmove hk => (hmove.held_eq hσ).trans hk) rfl

end CommandShell.Kernel
