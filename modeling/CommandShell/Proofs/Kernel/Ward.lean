import CommandShell.Proofs.Kernel.Request

/-!
# Programs that the shell waits for

A program that the shell has started stays known to the system until the shell forgets it: the other
tasks can end it, but only its parent can ask how it ended. So the shell always finds out.

## Main statements

- `Kernel.Moves.wards`: what is done without forgetting some programs leaves them known.
- `Kernel.Wards.exitOf_await`: once a known program has been waited for, it is known how it ended.
-/

namespace CommandShell.Kernel

/-- Some programs are known, and they are children of the shell. The numbers of the tasks have been
given out, and none of them stands for the shell. -/
structure Wards (P : Nat → Prop) (k : Kernel) : Prop where
  next_pos : 0 < k.nextPid
  pos : ∀ t ∈ k.tasks, 0 < t.pid
  lt : ∀ t ∈ k.tasks, t.pid < k.nextPid
  known : ∀ pid, P pid → ∃ t ∈ k.tasks, t.pid = pid
  parent : ∀ t ∈ k.tasks, P t.pid → t.parent = shellPid

/-- The numbers of the tasks are in order; nothing is said about any program. -/
abbrev Numbered (k : Kernel) : Prop := k.Wards fun _ => False

/-- Two tasks that are the same to others. -/
def SameWho (t t' : Task) : Prop := t'.pid = t.pid ∧ t'.parent = t.parent

theorem sameWho_struck (t : Task) (signal : Nat) : SameWho t (struck t signal) := by
  have hwho := affect_who t signal
  unfold struck
  split <;> next ha =>
    rw [ha] at hwho
    exact ⟨hwho.1, hwho.2.1⟩

theorem sameWho_notify (t : Task) : SameWho t (notify t) := by
  have hwho := affect_who t Signal.child
  unfold notify
  split <;> next ha =>
    rw [ha] at hwho
    exact ⟨hwho.1, hwho.2.1⟩

namespace Wards

variable {P : Nat → Prop} {k k' : Kernel}

theorem lt_nextPid (h : Wards P k) {pid : Nat} (hp : P pid) : pid < k.nextPid := by
  obtain ⟨t, ht, rfl⟩ := h.known pid hp
  exact h.lt t ht

/-- No task is the parent of one of the programs. -/
theorem parent_ne (h : Wards P k) {t u : Task} (ht : t ∈ k.tasks) (hu : u ∈ k.tasks)
    (hp : P u.pid) : u.parent ≠ t.pid := by
  have hpos := h.pos t ht
  rw [h.parent u hu hp]
  exact Nat.ne_of_lt hpos

theorem mono {Q : Nat → Prop} (h : Wards P k) (hqp : ∀ pid, Q pid → P pid) : Wards Q k :=
  ⟨h.next_pos, h.pos, h.lt, fun pid hq => h.known pid (hqp pid hq),
    fun t ht hq => h.parent t ht (hqp _ hq)⟩

/-- The tasks may change, as long as the programs stay who they are and are not lost. -/
theorem of_tasks (h : Wards P k) (hnext : k.nextPid ≤ k'.nextPid)
    (hold : ∀ t' ∈ k'.tasks, ∃ t ∈ k.tasks, t'.pid = t.pid ∧ (P t.pid → t'.parent = t.parent))
    (hkept : ∀ t ∈ k.tasks, P t.pid → ∃ t' ∈ k'.tasks, t'.pid = t.pid) : Wards P k' where
  next_pos := Nat.lt_of_lt_of_le h.next_pos hnext
  pos t' ht' := by
    obtain ⟨t, ht, hpid, -⟩ := hold t' ht'
    exact hpid ▸ h.pos t ht
  lt t' ht' := by
    obtain ⟨t, ht, hpid, -⟩ := hold t' ht'
    exact hpid ▸ Nat.lt_of_lt_of_le (h.lt t ht) hnext
  known pid hp := by
    obtain ⟨t, ht, rfl⟩ := h.known pid hp
    exact hkept t ht hp
  parent t' ht' hp := by
    obtain ⟨t, ht, hpid, hparent⟩ := hold t' ht'
    rw [hpid] at hp
    exact (hparent hp).trans (h.parent t ht hp)

theorem of_eq (h : Wards P k) (htasks : k'.tasks = k.tasks) (hnext : k.nextPid ≤ k'.nextPid) :
    Wards P k' :=
  h.of_tasks hnext (fun t ht => ⟨t, htasks ▸ ht, rfl, fun _ => rfl⟩)
    fun t ht _ => ⟨t, htasks ▸ ht, rfl⟩

theorem of_sameTasks (h : Wards P k) (hs : SameTasks k k') : Wards P k' :=
  h.of_eq hs.tasks (Nat.le_of_eq hs.nextPid.symm)

theorem send (h : Wards P k) (target signal : Nat) : Wards P (k.send target signal) := by
  have hwho
      (t : Task) : SameWho t (if t.pid = target && t.isRunning then struck t signal else t) := by
    split
    · exact sameWho_struck t signal
    · exact ⟨rfl, rfl⟩
  refine h.of_tasks (Nat.le_refl _) (fun t' ht' => ?_) fun t ht _ => ?_
  · obtain ⟨t, ht, rfl⟩ := List.mem_map.mp ht'
    exact ⟨t, ht, (hwho t).1, fun _ => (hwho t).2⟩
  · exact ⟨_, List.mem_map_of_mem ht, (hwho t).1⟩

theorem reap (h : Wards P k) {other : Nat} (hother : ¬ P other) : Wards P (k.reap other) := by
  refine h.of_tasks (Nat.le_refl _) (fun t ht => ?_) fun t ht hp => ?_
  · exact ⟨t, (List.mem_filter.mp ht).1, rfl, fun _ => rfl⟩
  · have hne : t.pid ≠ other := fun heq => hother (heq ▸ hp)
    exact ⟨t, List.mem_filter.mpr ⟨ht, by simpa using hne⟩, rfl⟩

/-- A new task has a number of its own; it may be one of the programs if it is a child of the
shell. -/
theorem add {Q : Nat → Prop} (h : Wards P k) (child : Task) (hchild : child.pid = k.nextPid)
    (htasks : ∀ t, t ∈ k'.tasks ↔ t ∈ k.tasks ∨ t = child) (hnext : k'.nextPid = k.nextPid + 1)
    (hq : ∀ pid, Q pid → P pid ∨ (pid = child.pid ∧ child.parent = shellPid)) : Wards Q k' where
  next_pos := by omega
  pos t ht := by
    obtain ht | rfl := (htasks t).mp ht
    · exact h.pos t ht
    · exact hchild ▸ h.next_pos
  lt t ht := by
    obtain ht | rfl := (htasks t).mp ht
    · exact hnext ▸ Nat.lt_succ_of_lt (h.lt t ht)
    · omega
  known pid hpid := by
    obtain hp | ⟨rfl, -⟩ := hq pid hpid
    · obtain ⟨t, ht, heq⟩ := h.known pid hp
      exact ⟨t, (htasks t).mpr (.inl ht), heq⟩
    · exact ⟨child, (htasks child).mpr (.inr rfl), rfl⟩
  parent t ht hpid := by
    obtain hp | ⟨heq, hparent⟩ := hq _ hpid
    · obtain ht | rfl := (htasks t).mp ht
      · exact h.parent t ht hp
      · have := h.lt_nextPid hp
        omega
    · obtain ht | rfl := (htasks t).mp ht
      · have := h.lt t ht
        omega
      · exact hparent

theorem take (h : Wards P k) {other : Nat} {t : Task} (ht : k.take other = some (t, k')) :
    Wards P (k'.putBack t) := by
  obtain ⟨u, hfind, hu⟩ := Option.map_eq_some_iff.mp ht
  obtain ⟨rfl, rfl⟩ := Prod.mk.inj hu
  have hmem : u ∈ k.tasks := List.mem_of_find?_eq_some hfind
  have hpid : u.pid = other := by
    have := List.find?_some hfind
    simp_all
  refine h.of_tasks (Nat.le_refl _) (fun v hv => ?_) fun v hv _ => ?_
  · rcases List.mem_append.mp hv with hin | hin
    · exact ⟨v, (List.mem_filter.mp hin).1, rfl, fun _ => rfl⟩
    · obtain rfl := List.mem_singleton.mp hin
      exact ⟨v, hmem, rfl, fun _ => rfl⟩
  · by_cases hother : v.pid = other
    · exact ⟨u, by simp [putBack], hpid.trans hother.symm⟩
    · exact ⟨v, by simp [putBack, hv, hother], rfl⟩

section Apart

variable {t t' : Task}

/-- The task that stands behind the others may be another one that is the same to them. -/
theorem replace (h : Wards P (k.putBack t)) (hwho : SameWho t t') : Wards P (k.putBack t') := by
  refine h.of_tasks (Nat.le_refl _) (fun u hu => ?_) fun u hu _ => ?_
  · rcases List.mem_append.mp hu with hin | hin
    · exact ⟨u, by simp [putBack, hin], rfl, fun _ => rfl⟩
    · obtain rfl := List.mem_singleton.mp hin
      exact ⟨t, by simp [putBack], hwho.1, fun _ => hwho.2⟩
  · rcases List.mem_append.mp hu with hin | hin
    · exact ⟨u, by simp [putBack, hin], rfl⟩
    · obtain rfl := List.mem_singleton.mp hin
      exact ⟨t', by simp [putBack], hwho.1⟩

/-- The tasks before the last one may change, as long as they stay who they are. -/
theorem map_putBack (h : Wards P (k.putBack t)) {f : Task → Task} (hf : ∀ u, SameWho u (f u)) :
    Wards P ({ k with tasks := k.tasks.map f }.putBack t) := by
  refine h.of_tasks (Nat.le_refl _) (fun u hu => ?_) fun u hu _ => ?_
  · rcases List.mem_append.mp hu with hin | hin
    · obtain ⟨v, hv, rfl⟩ := List.mem_map.mp hin
      exact ⟨v, by simp [putBack, hv], (hf v).1, fun _ => (hf v).2⟩
    · exact ⟨u, List.mem_append_right _ hin, rfl, fun _ => rfl⟩
  · rcases List.mem_append.mp hu with hin | hin
    · exact ⟨f u, List.mem_append_left _ (List.mem_map_of_mem hin), (hf u).1⟩
    · exact ⟨u, List.mem_append_right _ hin, rfl⟩

/-- The children of another task may be taken over. -/
theorem orphan_putBack (h : Wards P (k.putBack t)) : Wards P ((k.orphan t.pid).putBack t) := by
  have hother (v : Task) (hv : v ∈ k.tasks) (hp : P v.pid) : v.parent ≠ t.pid :=
    h.parent_ne (by simp [putBack]) (by simp [putBack, hv]) hp
  refine h.of_tasks (Nat.le_refl _) (fun u hu => ?_) fun u hu hp => ?_
  · rcases List.mem_append.mp hu with hin | hin
    · obtain ⟨v, hv, rfl⟩ := List.mem_map.mp hin
      have hold := (List.mem_filter.mp hv).1
      refine ⟨v, by simp [putBack, hold], by split <;> rfl, fun hp => ?_⟩
      rw [if_neg (hother v hold hp)]
    · exact ⟨u, List.mem_append_right _ hin, rfl, fun _ => rfl⟩
  · rcases List.mem_append.mp hu with hin | hin
    · have hne := hother u hin hp
      exact ⟨u, List.mem_append_left _ (List.mem_map.mpr
        ⟨u, List.mem_filter.mpr ⟨hin, by simp [hne]⟩, by simp [hne]⟩), rfl⟩
    · exact ⟨u, List.mem_append_right _ hin, rfl⟩

/-- A task that has ended stays if its parent will ask for it, as the shell does. -/
theorem bury (h : Wards P (k.putBack t)) (hwho : SameWho t t') :
    Wards P (if k.isParent t.parent then { k with tasks := k.tasks ++ [t'] } else k) := by
  split
  · exact (h.replace hwho).of_eq rfl (Nat.le_refl _)
  · next hparent =>
    refine h.of_tasks (Nat.le_refl _) (fun u hu => ⟨u, by simp [putBack, hu], rfl, fun _ => rfl⟩)
      fun u hu hp => ?_
    rcases List.mem_append.mp hu with hin | hin
    · exact ⟨u, hin, rfl⟩
    · obtain rfl := List.mem_singleton.mp hin
      have hshell : u.parent = shellPid := h.parent u (by simp [putBack]) hp
      exact absurd (by simp [isParent, hshell]) hparent

/-- A request of a task that stands behind the others. -/
theorem request (h : Wards P (k.putBack t)) (hr : Request k t k' t') : Wards P (k'.putBack t') := by
  have hself : Wards P (k.putBack t') := h.replace ⟨hr.pid, hr.parent⟩
  cases hr.stirs with
  | nothing htasks hnext => exact hself.of_eq (by simp [putBack, htasks]) (Nat.le_of_eq hnext.symm)
  | fork child hchild _ _ htasks hnext =>
    refine hself.add child hchild (fun u => ?_) hnext fun _ hp => .inl hp
    simp only [putBack, htasks, List.mem_append, List.mem_singleton]
    exact or_right_comm
  | reap child hmem hparent htasks hnext =>
    have hchild : ¬ P child.pid := fun hp =>
      h.parent_ne (t := t) (by simp [putBack]) (by simp [putBack, hmem]) hp hparent
    refine hself.of_tasks (Nat.le_of_eq hnext.symm) (fun u hu => ?_) fun u hu hp => ?_
    · refine ⟨u, ?_, rfl, fun _ => rfl⟩
      simp only [putBack, htasks, List.mem_append, List.mem_filter] at hu ⊢
      exact hu.imp_left And.left
    · refine ⟨u, ?_, rfl⟩
      have hne : u.pid ≠ child.pid := fun heq => hchild (heq ▸ hp)
      simp only [putBack, htasks, List.mem_append, List.mem_filter] at hu ⊢
      exact hu.imp_left fun hin => ⟨hin, by simpa using hne⟩
  | send target signal htasks hnext =>
    refine (hself.map_putBack (f := fun u =>
      if u.pid = target && u.isRunning then struck u signal else u)
      fun u => ?_).of_eq (by rw [putBack, htasks]; rfl) (Nat.le_of_eq hnext.symm)
    split
    · exact sameWho_struck u signal
    · exact ⟨rfl, rfl⟩

theorem finish (h : Wards P (k.putBack t)) (e : Exit) : Wards P (k.finish t e) := by
  unfold Kernel.finish
  extract_lets k₁ k₂ k₃
  have h₂ : Wards P (k₂.putBack t) := by
    refine h.orphan_putBack.map_putBack fun u => ?_
    split
    · exact sameWho_notify u
    · exact ⟨rfl, rfl⟩
  have h₃ : Wards P k₃ := h₂.bury ⟨rfl, rfl⟩
  exact h₃.of_sameTasks (.releaseAll ..)

end Apart

end Wards

/-- What is done without forgetting some programs leaves them known. -/
theorem Move.wards {σ : Scope} {P : Nat → Prop} (hσ : ∀ pid, P pid → ¬ σ.reaps pid) {k k' : Kernel}
    (hm : Move σ k k') (h : Wards P k) : Wards P k' := by
  cases hm with
  | take htake => exact h.take htake
  | step k t =>
    have hstep := h.request (step_follows k t)
    cases hturn : k.step t with
    | ends k₁ t₁ e =>
      rw [hturn] at hstep
      exact hstep.finish e
    | goesOn | waits =>
      rw [hturn] at hstep
      exact hstep
  | finish htake _ e => exact (h.take htake).finish e
  | send _ _ signal => exact h.send _ signal
  | reap _ hr => exact h.reap fun hp => hσ _ hp hr
  | @spawn k process descriptors =>
    exact h.add { pid := k.nextPid, parent := shellPid, process, descriptors } rfl
      (fun t => by simp [Kernel.spawn]) rfl fun _ hp => .inl hp
  | @letGo k x =>
    have hdrop : Wards P { k with held := k.held.erase x } := h.of_eq rfl (Nat.le_refl _)
    exact hdrop.of_sameTasks (.release ..)
  | write _ bytes => exact h.of_sameTasks (.writeFile ..)
  | _ => exact h.of_eq rfl (Nat.le_refl _)

theorem Moves.wards {σ : Scope} {P : Nat → Prop} (hσ : ∀ pid, P pid → ¬ σ.reaps pid) {k k' : Kernel}
    (hm : Moves σ k k') (h : Wards P k) : Wards P k' :=
  hm.invariant (fun _ _ hmove hk => hmove.wards hσ hk) h

namespace Wards

variable {P : Nat → Prop} {k : Kernel}

/-- A program that is started is known from then on. -/
theorem spawn (h : Wards P k) (process : Process) (descriptors : List (Nat × Handle)) :
    Wards (fun pid => P pid ∨ pid = k.nextPid) (k.spawn process descriptors).2 :=
  h.add { pid := k.nextPid, parent := shellPid, process, descriptors } rfl
    (fun t => by simp [Kernel.spawn]) rfl fun _ hp => hp.imp_right fun heq => ⟨heq, rfl⟩

/-- A task whose number no other task has ends, and the shell is its parent. -/
theorem exitOf_finish {k : Kernel} {t : Task} (hparent : t.parent = shellPid)
    (halone : ∀ u ∈ k.tasks, u.pid ≠ t.pid) (e : Exit) : (k.finish t e).exitOf t.pid = some e := by
  unfold Kernel.finish
  extract_lets k₁ k₂ k₃
  have hothers (u : Task) (hu : u ∈ k₂.tasks) : u.pid ≠ t.pid := by
    obtain ⟨v, hv, rfl⟩ := List.mem_map.mp hu
    obtain ⟨w, hw, rfl⟩ := List.mem_map.mp hv
    have hne := halone w (List.mem_filter.mp hw).1
    have hpid : (if w.parent = t.pid then { w with parent := adopter } else w).pid = w.pid := by
      split <;> rfl
    generalize (if w.parent = t.pid then { w with parent := adopter } else w) = v at hpid
    split
    · rwa [(sameWho_notify v).1, hpid]
    · rwa [hpid]
  have h₃ : k₃.tasks = k₂.tasks ++
      [{ t with ended := some e, descriptors := [], process := .exhausted }] := by
    unfold k₃
    rw [if_pos (by simp [isParent, hparent])]
  have hnone : k₂.tasks.find? (fun u => u.pid = t.pid) = none := by
    simpa using hothers
  rw [exitOf, (SameTasks.releaseAll k₃ [] t.handles).tasks, h₃, List.find?_append, hnone]
  simp

/-- Once a known program has been waited for, it is known how it ended. -/
theorem exitOf_await (h : Wards P k) {pid : Nat} (hp : P pid) :
    ∃ e, (k.await pid).exitOf pid = some e := by
  unfold Kernel.await
  extract_lets k'
  have h' : Wards P k' := by
    let σ : Scope := ⟨fun _ => True, fun _ => True, fun _ => False, fun _ => True, True,
      fun _ _ => True, fun _ => True⟩
    exact Moves.wards (σ := σ) (fun _ _ hr => hr) (.runPatiently ..) h
  obtain ⟨t, ht, hpid⟩ := h'.known pid hp
  have htask : k'.hasTask pid := List.any_eq_true.mpr ⟨t, ht, by simpa using hpid⟩
  split
  · next hended =>
    exact Option.isSome_iff_exists.mp (by simpa [hasEnded, htask] using hended)
  · next hended =>
    have hnone : k'.exitOf pid = none := by
      simp only [hasEnded, htask] at hended
      simpa using hended
    obtain ⟨v, hv⟩ : ∃ v, k'.tasks.find? (fun u => u.pid = pid) = some v :=
      Option.isSome_iff_exists.mp (List.find?_isSome.mpr ⟨t, ht, by simpa using hpid⟩)
    have hrunning : v.isRunning := by
      rw [exitOf, hv, Option.bind_some] at hnone
      simp [Task.isRunning, hnone]
    have hvpid : v.pid = pid := by simpa using List.find?_some hv
    obtain ⟨u, hu⟩ : ∃ u, k'.tasks.find? (fun u => u.pid = pid && u.isRunning) = some u :=
      Option.isSome_iff_exists.mp (List.find?_isSome.mpr
        ⟨v, List.mem_of_find?_eq_some hv, by simp [hvpid, hrunning]⟩)
    have hmem : u ∈ k'.tasks := List.mem_of_find?_eq_some hu
    have hupid : u.pid = pid := by
      have := List.find?_some hu
      simp_all
    subst hupid
    refine ⟨.killed Signal.kill, ?_⟩
    rw [terminate, Kernel.take, hu, Option.map_some]
    exact exitOf_finish (h'.parent u hmem hp)
      (fun v hv => by simpa using (List.mem_filter.mp hv).2) _

end Wards

end CommandShell.Kernel
