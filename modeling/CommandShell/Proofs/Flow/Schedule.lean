import CommandShell.Proofs.Flow.Step
import CommandShell.Proofs.Scope.Grip

/-!
# Running a chain of programs

The programs of a chain may take their turns in any order. Each turn in which one of them does
something leaves fewer turns to take, so there is an end to it; and they never wait for each other
in a circle, since each one waits for a neighbour: the one who is next to the end of the chain, or
the one who is next to its start, does not wait.

## Main statements

- `Chain.Flows.runUntil`: running the tasks of a system for a number of rounds.
- `Chain.Flows.runPatiently`: either there is a reason to stop, or every program waits.
- `Chain.Flows.unmanned_of_blocked`: if the shell writes to none of them, every program has ended
  then.
- `Chain.Flows.await`: waiting for a program never needs to kill it.
-/

namespace CommandShell

open Kernel (Alike)

namespace Chain

variable {C : Chain} {shown : Bytes} {o o' o'' : Outlook} {k k' k'' : Kernel} {i : Nat}
  {err : Handle} {t : Task}

/-- A system in which the programs of a chain have run for a while, if at all. -/
structure Runs (C : Chain) (shown : Bytes) (o : Outlook) (k : Kernel) (o' : Outlook)
    (k' : Kernel) : Prop where
  flows : C.Flows shown o' k'
  evolves : C.Evolves (fun _ => False) o k o' k'
  still : k.Still k'

theorem Runs.trans (h : C.Runs shown o k o' k') (g : C.Runs shown o' k' o'' k'') :
    C.Runs shown o k o'' k'' :=
  ⟨g.flows, h.evolves.trans g.evolves, h.still.trans g.still⟩

theorem Flows.runs (h : C.Flows shown o k) : C.Runs shown o k o k := ⟨h, .refl o k, .refl k⟩

theorem Flows.runs_alike (h : C.Flows shown o k) (ha : k.Alike k') : C.Runs shown o k o k' :=
  ⟨h.alike ha, .of_alike ha, ha.still⟩

theorem Gains.runs (h : C.Gains shown o k o' k') : C.Runs shown o k o' k' :=
  ⟨h.flows, h.evolves, h.still⟩

theorem Gains.clock (h : C.Gains shown o k o' k') (clock : Nat) :
    C.Gains shown o k o' { k' with clock } :=
  ⟨h.flows.alike (.clock k' clock), h.evolves.trans (.of_alike (.clock k' clock)), h.less,
    h.still.trans (Alike.clock k' clock).still⟩

/-- A task that runs is the program of a stage. -/
theorem Flows.mans (h : C.Flows shown o k) (ht : t ∈ k.tasks) (hrun : t.isRunning = true) :
    ∃ i err, C.Mans i err t := by
  obtain ⟨i, err, hw⟩ | hc := h.tasks t ht
  · exact ⟨i, err, hw.mans⟩
  · have hended := hc.ended
    simp [Option.isNone_iff_eq_none.mp hrun] at hended

section Rounds

theorem runTask_moved (n : Nat) (k : Kernel) (t : Task) : (k.runTask n true t).2 = true := by
  induction n generalizing k t with
  | zero => rfl
  | succ n ih =>
    unfold Kernel.runTask
    split
    · exact ih ..
    · rfl
    · rfl

theorem round_moved (stop : Kernel → Bool) (pids : List Nat) (k : Kernel) :
    (k.round stop pids true).2 = true := by
  induction pids generalizing k with
  | nil => rfl
  | cons pid rest ih =>
    unfold Kernel.round
    split
    · rfl
    · split
      · exact ih ..
      · exact ih ..

/-- A program runs for a while. -/
theorem Flows.runTask (n : Nat) (moved : Bool) (h : C.Flows shown o (k.putBack t))
    (hm : C.Mans i err t) : ∃ o', C.Runs shown o (k.putBack t) o' (k.runTask n moved t).1 ∧
      ((k.runTask n moved t).2 = true → moved = true ∨ C.total o' < C.total o) := by
  induction n generalizing o k t moved with
  | zero => exact ⟨o, h.runs, .inl⟩
  | succ n ih =>
    have hstep := h.step hm
    unfold Kernel.runTask
    generalize k.step t = turn at hstep
    cases hstep with
    | @goesOn o₁ k₁ process hgains =>
      have hnext := hgains.clock (k₁.clock + 1)
      obtain ⟨o', hruns, -⟩ :=
        ih (k := { k₁ with clock := k₁.clock + 1 }) true hnext.flows (hm.process process)
      exact ⟨o', hnext.runs.trans hruns, fun _ =>
        .inr (Nat.lt_of_le_of_lt hruns.evolves.work hgains.less)⟩
    | waits => exact ⟨o, h.runs, .inl⟩
    | ends hgains => exact ⟨_, hgains.runs, fun _ => .inr hgains.less⟩

/-- A program that has not done anything waits. -/
theorem Flows.runTask_unmoved {n : Nat} (h : C.Flows shown o (k.putBack t)) (hm : C.Mans i err t)
    (hn : (k.runTask (n + 1) false t).2 = false) :
    (k.runTask (n + 1) false t).1 = k.putBack t ∧ C.Blocked (k.putBack t) i := by
  have hstep := h.step hm
  unfold Kernel.runTask at hn ⊢
  generalize k.step t = turn at hstep hn ⊢
  cases hstep with
  | goesOn => exact absurd hn (by simp [runTask_moved])
  | waits hblocked => exact ⟨rfl, hblocked⟩
  | ends => cases hn

theorem blocked_alike (h : k.Alike k') (i : Nat) : C.Blocked k' i ↔ C.Blocked k i := by
  simp only [Blocked, h.pipeContent, h.isHeld]

/-- Every program has its turn. -/
theorem Flows.round (stop : Kernel → Bool) (pids : List Nat) (moved : Bool)
    (h : C.Flows shown o k) : ∃ o', C.Runs shown o k o' (k.round stop pids moved).1 ∧
      ((k.round stop pids moved).2 = true →
        moved = true ∨ C.total o' < C.total o ∨ stop (k.round stop pids moved).1 = true) ∧
      ((k.round stop pids moved).2 = false → k.Alike (k.round stop pids moved).1 ∧
        ∀ t ∈ k.tasks, t.pid ∈ pids → ∀ i err, C.Mans i err t → C.Blocked k i) := by
  induction pids generalizing o k moved with
  | nil => exact ⟨o, h.runs, .inl, fun _ => ⟨.refl k, fun _ _ hmem => absurd hmem List.not_mem_nil⟩⟩
  | cons pid rest ih =>
    unfold Kernel.round
    split
    · next hstop => exact ⟨o, h.runs, fun _ => .inr (.inr hstop), by simp⟩
    · split
      · next hnone =>
        obtain ⟨o', hruns, hmoved, hstill⟩ := ih moved h
        refine ⟨o', hruns, hmoved, fun hfalse => ⟨(hstill hfalse).1, fun t ht hmem i err hm => ?_⟩⟩
        rcases List.mem_cons.mp hmem with heq | hrest
        · -- The task would have been found.
          have hfound := List.find?_eq_none.mp (Option.map_eq_none_iff.mp hnone) t ht
          simp [heq, Task.isRunning, hm.ended] at hfound
        · exact (hstill hfalse).2 t ht hrest i err hm
      · next t k₁ htake =>
        obtain ⟨halike, ht, hpid, hrun⟩ := Kernel.alike_take h.pids htake
        obtain ⟨i, err, hm⟩ := h.mans ht hrun
        have h₁ := h.runs_alike halike
        rw [if_neg (by simp [hm.stopped])]
        obtain ⟨o₁, hruns, hmoved⟩ := h₁.flows.runTask Kernel.turnSize false hm
        have hunmoved := h₁.flows.runTask_unmoved (n := 999) hm
        change (k₁.runTask Kernel.turnSize false t).2 = false →
            (k₁.runTask Kernel.turnSize false t).1 = _ ∧ _ at hunmoved
        generalize k₁.runTask Kernel.turnSize false t = result at hruns hmoved hunmoved
        obtain ⟨k₂, m⟩ := result
        dsimp only at hruns hmoved hunmoved ⊢
        obtain ⟨o', hruns', hmoved', hstill'⟩ := ih (moved || m) hruns.flows
        have hall := h₁.trans (hruns.trans hruns')
        refine ⟨o', hall, fun htrue => ?_, fun hfalse => ?_⟩
        · obtain hor | hless | hstop := hmoved' htrue
          · rcases Bool.or_eq_true_iff.mp hor with hold | hnew
            · exact .inl hold
            · have hless := (hmoved hnew).resolve_left Bool.false_ne_true
              exact .inr (.inl (Nat.lt_of_le_of_lt hruns'.evolves.work hless))
          · exact .inr (.inl (Nat.lt_of_lt_of_le hless hruns.evolves.work))
          · exact .inr (.inr hstop)
        · have hm' : m = false := by
            cases m with
            | false => rfl
            | true =>
              rw [Bool.or_true, round_moved] at hfalse
              cases hfalse
          obtain ⟨rfl, hblocked⟩ := hunmoved hm'
          obtain ⟨halike', hothers⟩ := hstill' hfalse
          refine ⟨halike.trans halike', fun u hu hmem j err' hmu => ?_⟩
          rcases List.mem_cons.mp hmem with heq | hrest
          · obtain rfl := List.inj_on_of_nodup_map h.pids hu ht (heq.trans hpid.symm)
            obtain ⟨rfl, -⟩ := hmu.unique hm
            exact (blocked_alike halike j).mp hblocked
          · exact (blocked_alike halike j).mp
              (hothers u (halike.tasks.mem_iff.mpr hu) hrest j err' hmu)

/-- Nothing is to be woken. -/
theorem Flows.nextWake (h : C.Flows shown o k) : k.nextWake = none := by
  have hnone : (k.tasks.filter fun t => !t.stopped).filterMap Task.wakeAt = [] := by
    refine List.filterMap_eq_nil_iff.mpr fun t ht => ?_
    obtain ⟨i, err, hw⟩ | hc := h.tasks t (List.mem_of_mem_filter ht)
    · exact hw.mans.wakeAt
    · exact hc.wakeAt
  rw [Kernel.nextWake, hnone]
  rfl

/-- Everything runs for a number of rounds. If there are enough of them, there is a reason to stop
in the end or every program waits. -/
theorem Flows.runUntil (stop : Kernel → Bool) (patient : Bool) (fuel : Nat)
    (h : C.Flows shown o k) :
    ∃ o', C.Runs shown o k o' (k.runUntil stop patient fuel) ∧ (C.total o < fuel ∨ stop k = true →
      stop (k.runUntil stop patient fuel) = true ∨
        ∀ i, C.Manned (k.runUntil stop patient fuel) i →
          C.Blocked (k.runUntil stop patient fuel) i) := by
  induction fuel generalizing o k with
  | zero => exact ⟨o, h.runs, fun henough => .inl (henough.resolve_left (Nat.not_lt_zero _))⟩
  | succ fuel ih =>
    unfold Kernel.runUntil
    split
    · next hstop => exact ⟨o, h.runs, fun _ => .inl hstop⟩
    · next hstop =>
      obtain ⟨o₁, hruns, hmoved, hstill⟩ := h.round stop (k.tasks.map Task.pid) false
      generalize k.round stop (k.tasks.map Task.pid) false = result at hruns hmoved hstill
      obtain ⟨k₁, moved⟩ := result
      cases moved with
      | true =>
        obtain ⟨o', hruns', hend⟩ := ih hruns.flows
        refine ⟨o', hruns.trans hruns', fun henough => hend ?_⟩
        have hfuel := henough.resolve_right hstop
        exact ((hmoved rfl).resolve_left Bool.false_ne_true).imp (fun hless => by omega) id
      | false =>
        obtain ⟨halike, hblocked⟩ := hstill rfl
        have hwake : (if patient then k₁.nextWake else none) = none := by
          rw [hruns.flows.nextWake]
          exact ite_self _
        simp only [hwake]
        refine ⟨o₁, hruns, fun _ => .inr fun i hi => ?_⟩
        obtain ⟨t, ht, err, hm⟩ := (manned_alike halike i).mp hi
        exact (blocked_alike halike i).mpr (hblocked t ht (List.mem_map_of_mem ht) i err hm)

end Rounds

section Deadlock

/-- If every program waits, none waits for the one behind it, since the last one could not. -/
theorem Flows.reads_of_blocked (h : C.Flows shown o k) (hall : ∀ i, C.Manned k i → C.Blocked k i)
    (hi : C.Manned k i) :
    ∃ j, i = j + 1 ∧ (k.pipeContent (C.base + j)).size = 0 ∧
      k.isHeld (.writer (C.base + j)) = true := by
  induction hn : C.length - i generalizing i with
  | zero =>
    obtain ⟨t, ht, err, hm⟩ := hi
    have hstage := (h.works ht hm).stage
    omega
  | succ n ih =>
    refine (hall i hi).resolve_right fun ⟨hlt, hfull, hheld⟩ => ?_
    obtain ⟨j, hj, hempty, -⟩ := ih ((h.isHeld_reader i).mp hheld) (by omega)
    obtain rfl : i = j := Nat.succ.inj hj
    omega

/-- If every program waits and the shell writes to none of them, there is none, since the first one
could not wait. -/
theorem Flows.unmanned_of_blocked (h : C.Flows shown o k) (hall : ∀ i, C.Manned k i → C.Blocked k i)
    (hheld : ∀ i, i + 1 < C.length → .writer (C.base + i) ∉ k.held) (i : Nat) : ¬ C.Manned k i := by
  induction i with
  | zero =>
    intro hi
    obtain ⟨j, hj, -⟩ := h.reads_of_blocked hall hi
    cases hj
  | succ i ih =>
    intro hi
    obtain ⟨j, hj, -, hwriter⟩ := h.reads_of_blocked hall hi
    obtain rfl : i = j := Nat.succ.inj hj
    obtain ⟨t, ht, err, hm⟩ := hi
    have hstage := (h.works ht hm).stage
    exact ih (((h.isHeld_writer hstage).mp hwriter).resolve_left (hheld i hstage))

end Deadlock

section Waiting

/-- As much patience as there are turns to take is enough. -/
theorem Flows.runPatiently (h : C.Flows shown o k) (stop : Kernel → Bool)
    (hpatience : C.total o < k.patience) :
    ∃ o', C.Runs shown o k o' (k.runPatiently stop) ∧ (k.runPatiently stop).held = k.held ∧
      (k.runPatiently stop).patience = k.patience ∧ (stop (k.runPatiently stop) = true ∨
        ∀ i, C.Manned (k.runPatiently stop) i → C.Blocked (k.runPatiently stop) i) := by
  have hmoves := Kernel.Moves.runPatiently (σ := .still) k stop
  obtain ⟨o', hruns, hend⟩ := h.runUntil stop true k.patience
  exact ⟨o', hruns, hmoves.held_eq Scope.not_grips_still, hmoves.advances.patience,
    hend (.inl hpatience)⟩

/-- A program that nobody runs any more has ended. -/
theorem Flows.hasEnded (h : C.Flows shown o k) (hnobody : ∀ i, ¬ C.Manned k i) (pid : Nat) :
    k.hasEnded pid = true := by
  unfold Kernel.hasEnded Kernel.exitOf
  cases hfind : k.tasks.find? fun t => t.pid = pid with
  | none =>
    have hnone : k.hasTask pid = false := by
      rw [Kernel.hasTask, List.any_eq_false]
      exact fun t ht => List.find?_eq_none.mp hfind t ht
    simp [hnone]
  | some t =>
    have ht := List.mem_of_find?_eq_some hfind
    obtain ⟨i, err, hw⟩ | hc := h.tasks t ht
    · exact absurd ⟨t, ht, err, hw.mans⟩ (hnobody i)
    · simp [hc.ended]

/-- A task that has ended runs no program. -/
theorem Flows.ne_of_hasEnded (h : C.Flows shown o k) {pid : Nat} (hended : k.hasEnded pid = true)
    (ht : t ∈ k.tasks) (hm : C.Mans i err t) : t.pid ≠ pid := by
  rintro rfl
  have hfind : k.tasks.find? (fun u => u.pid = t.pid) = some t := by
    obtain ⟨u, hu⟩ : ∃ u, k.tasks.find? (fun u => u.pid = t.pid) = some u := by
      rw [← Option.isSome_iff_exists, List.find?_isSome]
      exact ⟨t, ht, by simp⟩
    have hpid : u.pid = t.pid := by simpa using List.find?_some hu
    rw [hu, List.inj_on_of_nodup_map h.pids (List.mem_of_find?_eq_some hu) ht hpid]
  have hexists : k.hasTask t.pid = true := List.any_eq_true.mpr ⟨t, ht, by simp⟩
  simp [Kernel.hasEnded, Kernel.exitOf, hfind, hm.ended, hexists] at hended

/-- The shell waits for a program while it writes to none: the program ends by itself. -/
theorem Flows.await (h : C.Flows shown o k) (hpatience : C.total o < k.patience)
    (hheld : ∀ i, i + 1 < C.length → .writer (C.base + i) ∉ k.held) (pid : Nat) :
    ∃ o', C.Runs shown o k o' (k.await pid) ∧ (k.await pid).held = k.held ∧
      (k.await pid).patience = k.patience ∧ (k.await pid).hasEnded pid = true := by
  obtain ⟨o', hruns, hheld', hpatience', hend⟩ := h.runPatiently (fun k => k.hasEnded pid) hpatience
  have hended : (k.runPatiently fun k => k.hasEnded pid).hasEnded pid = true := by
    refine hend.elim id fun hblocked => ?_
    exact hruns.flows.hasEnded (hruns.flows.unmanned_of_blocked hblocked fun i hi =>
      hheld' ▸ hheld i hi) pid
  have hawait : k.await pid = k.runPatiently fun k => k.hasEnded pid := by
    unfold Kernel.await
    exact if_pos hended
  rw [hawait]
  exact ⟨o', hruns, hheld', hpatience', hended⟩

end Waiting

end Chain

end CommandShell
