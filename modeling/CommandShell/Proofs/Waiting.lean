import CommandShell.Proofs.Ledger.Phases
import CommandShell.Proofs.Scope.Attend

/-!
# Waiting for programs

However often the shell is interrupted while it waits, it starts to wait again, and at last it has
waited for every program. A program may be waited for more than once: its result is written down
again, and the number of stages that are left does not change.

## Main statements

- `Run.tells_collect`: programs are waited for until the budget is used up.
- `Run.tells_join`: when the shell stops waiting, every program that was started has ended.
-/

namespace CommandShell.Pipeline

/-- What waiting may do to the stages: programs that have been started end, all others stay. -/
def Waits (st st' : Nat → StageState) : Prop :=
  ∀ i, st' i = st i ∨ ∃ pid e, (st i).process? = some pid ∧ st' i = .settled (.ended pid e)

/-- No program has been waited for without a result. -/
def Steady (st : Nat → StageState) : Prop :=
  ∀ i pid, (st i).process? = some pid → st i = .running pid ∨ ∃ e, st i = .settled (.ended pid e)

namespace Waits

variable {st st' st'' : Nat → StageState}

theorem refl (st : Nat → StageState) : Waits st st := fun _ => .inl rfl

theorem trans (h : Waits st st') (g : Waits st' st'') : Waits st st'' := by
  intro i
  obtain heq | ⟨pid, e, hp, heq⟩ := h i <;> obtain heq' | ⟨pid', e', hp', heq'⟩ := g i
  · exact .inl (heq'.trans heq)
  · exact .inr ⟨pid', e', heq ▸ hp', heq'⟩
  · exact .inr ⟨pid, e, hp, heq'.trans heq⟩
  · rw [heq] at hp'
    obtain rfl : pid = pid' := Option.some.inj hp'
    exact .inr ⟨pid, e', hp, heq'⟩

/-- A program that has ended stays so, though another exit may be written down. -/
theorem ended (h : Waits st st') {i pid : Nat} (hi : ∃ e, st i = .settled (.ended pid e)) :
    ∃ e, st' i = .settled (.ended pid e) := by
  obtain ⟨e, hi⟩ := hi
  obtain heq | ⟨pid', e', hp, heq⟩ := h i
  · exact ⟨e, heq.trans hi⟩
  · rw [hi] at hp
    obtain rfl : pid = pid' := Option.some.inj hp
    exact ⟨e', heq⟩

theorem steady (h : Waits st st') (hs : Steady st) : Steady st' := by
  intro i pid hp
  obtain heq | ⟨pid', e, -, heq⟩ := h i <;> rw [heq] at hp ⊢
  · exact hs i pid hp
  · obtain rfl : pid' = pid := Option.some.inj hp
    exact .inr ⟨e, rfl⟩

/-- A program ends. -/
theorem update {i pid : Nat} (hp : (st i).process? = some pid) (e : Exit) :
    Waits st (Function.update st i (.settled (.ended pid e))) := by
  intro j
  rw [Function.update_apply]
  split
  · next hj => exact .inr ⟨pid, e, hj ▸ hp, rfl⟩
  · exact .inl rfl

end Waits

namespace Run

variable {r : Run} {st : Nat → StageState}

/-- What the shell takes from the screen says nothing about programs. -/
theorem exitOf_onKernel (r : Run) (f : Kernel → Kernel) (pid : Nat) :
    (r.onKernel f).kernel.exitOf pid = (f r.kernel).exitOf pid := by
  change (r.session.onKernel f).absorb.world.toKernel.exitOf pid = _
  unfold Session.absorb
  split <;> rfl

/-- A program is waited for, perhaps not for the first time. -/
theorem tells_awaitJob (h : r.Tells st) (ha : r.Attended) (hs : Steady st) {job : Job}
    (hj : job ∈ r.jobs) :
    ∃ e, (r.awaitJob job).Tells (Function.update st job.index (.settled (.ended job.pid e))) := by
  have hp : (st job.index).process? = some job.pid := (h.jobs job.index job.pid).mp hj
  obtain ⟨stage, hstage⟩ := h.exists_stage hp
  obtain ⟨e, he⟩ := Kernel.Wards.exitOf_await ha ⟨job, hj, rfl⟩
  refine ⟨e, ?_⟩
  rw [toLedger_awaitJob, exitOf_onKernel, he]
  exact h.finish hstage e (hs _ _ hp)

/-- Programs are waited for one after the other, until the budget is used up. -/
theorem tells_collect {jobs : List Job} (budget : Option Nat) (h : r.Tells st) (ha : r.Attended)
    (hs : Steady st) (hjobs : ∀ job ∈ jobs, job ∈ r.jobs) :
    ∃ st', (collect jobs budget r).1.Tells st' ∧ Waits st st' ∧
      ((collect jobs budget r).2 ≠ none →
        ∀ job ∈ jobs, ∃ e, st' job.index = .settled (.ended job.pid e)) ∧
      (budget = none → (collect jobs budget r).2 ≠ none) := by
  induction jobs generalizing r st budget with
  | nil => exact ⟨st, h, .refl st, by simp, by simp [collect]⟩
  | cons job rest ih =>
    have hj : job ∈ r.jobs := hjobs job List.mem_cons_self
    have hp : (st job.index).process? = some job.pid := (h.jobs job.index job.pid).mp hj
    obtain ⟨e, hfirst⟩ := tells_awaitJob h ha hs hj
    have hwaits := Waits.update hp e
    have hstep (b : Option Nat) : ∃ st', (collect rest b (r.awaitJob job)).1.Tells st' ∧
        Waits st st' ∧ ((collect rest b (r.awaitJob job)).2 ≠ none →
          ∀ j ∈ job :: rest, ∃ e, st' j.index = .settled (.ended j.pid e)) ∧
        (b = none → (collect rest b (r.awaitJob job)).2 ≠ none) := by
      obtain ⟨st', htells, hrest, hall, hnone⟩ := ih b hfirst
        (ha.makes (ha.within.makes_awaitJob hj) rfl) (hwaits.steady hs)
        fun j hmem => hjobs j (List.mem_cons_of_mem _ hmem)
      refine ⟨st', htells, hwaits.trans hrest, fun hdone j hmem => ?_, hnone⟩
      rcases List.mem_cons.mp hmem with rfl | hmem
      · exact hrest.ended ⟨e, Function.update_self ..⟩
      · exact hall hdone j hmem
    rcases budget with _ | _ | n
    · exact hstep none
    · exact ⟨st, h, .refl st, fun hdone => absurd rfl hdone, fun hb => nomatch hb⟩
    · obtain ⟨st', htells, hw, hall, -⟩ := hstep (some n)
      exact ⟨st', htells, hw, hall, fun hb => nomatch hb⟩

/-- A drained pump has seen the end of every stream, so the shell does not wait in vain. -/
theorem drain_ne_starved (h : r.Balanced) (budget : Option Nat) : (r.drain budget).2 ≠ .starved :=
  (Pump.drain_balanced _ (Within.balanced_gather h) budget
    (r.gather.wiring.outlets, r.gather.session)).2

theorem tells_waitOnce (budget : Option Nat) (h : r.Tells st) (ha : r.Attended) (hb : r.Balanced)
    (hs : Steady st) :
    ∃ st', (waitOnce budget r).1.Tells st' ∧ Waits st st' ∧
      ((waitOnce budget r).2 ≠ none →
        ∀ job ∈ r.jobs, ∃ e, st' job.index = .settled (.ended job.pid e)) ∧
      (budget = none → (waitOnce budget r).2 ≠ none) := by
  have hledger := r.toLedger_drain budget
  have hmakes := ha.within.makes_drain budget
  have hstarved := drain_ne_starved hb budget
  have hunbounded (hnone : budget = none) : (r.drain budget).2 ≠ .interrupted ∧
      ∀ left, (r.drain budget).2 = .drained left → left = none := by
    subst hnone
    exact Pump.drain_unbounded r.gather.pump (r.gather.wiring.outlets, r.gather.session)
  rcases hd : r.drain budget with ⟨r', left | _ | _⟩ <;>
    rw [hd] at hledger hmakes hstarved hunbounded <;> simp only [waitOnce, hd]
  · have hjobs : r'.jobs = r.jobs := congrArg Ledger.jobs hledger
    replace hledger : r'.toLedger = r.toLedger := hledger
    obtain ⟨st', htells, hw, hall, hnone⟩ :=
      tells_collect left (hledger ▸ h) (ha.makes hmakes hjobs) hs
      fun _ hj => hj
    exact ⟨st', htells, hw, hjobs ▸ hall, fun hb => hnone ((hunbounded hb).2 left rfl)⟩
  · replace hledger : r'.toLedger = r.toLedger := hledger
    exact ⟨st, hledger ▸ h, .refl st, fun hn => absurd rfl hn, fun hb =>
      absurd rfl (hunbounded hb).1⟩
  · exact absurd rfl hstarved

/-- After each interrupt the shell waits again, until it has waited for all programs. -/
theorem tells_await (interrupts : List Nat) (h : r.Tells st) (ha : r.Attended) (hb : r.Balanced)
    (hs : Steady st) :
    ∃ st', (await interrupts r).Tells st' ∧ Waits st st' ∧
      ∀ job ∈ r.jobs, ∃ e, st' job.index = .settled (.ended job.pid e) := by
  have hagain (r : Run) (rest : List Nat) (ha : r.Attended) (hb : r.Balanced) :
      Attended { r.interruptPrograms with session.interrupts := rest } ∧
        Balanced { r.interruptPrograms with session.interrupts := rest } := by
    have hsent := ha.within.makes_interruptPrograms
    have hset := hsent.within.makes_session
      (s := { r.interruptPrograms.session with interrupts := rest })
        ⟨.refl, rfl, rfl, rfl, rfl, rfl, .refl _⟩
    exact ⟨ha.makes (hsent.trans hset) rfl, (hsent.trans hset).balanced hb⟩
  induction interrupts generalizing r st with
  | nil =>
    obtain ⟨st', htells, hw, hall, hnone⟩ := tells_waitOnce none h ha hb hs
    exact ⟨st', htells, hw, hall (hnone rfl)⟩
  | cons n rest ih =>
    cases n with
    | zero =>
      obtain ⟨ha', hb'⟩ := hagain r rest ha hb
      exact ih (r := { r.interruptPrograms with session.interrupts := rest }) h ha' hb' hs
    | succ n =>
      obtain ⟨st', htells, hw, hall, -⟩ := tells_waitOnce (some (n + 1)) h ha hb hs
      have hmakes := ha.within.makes_waitOnce (some (n + 1))
      have hjobs : (waitOnce (some (n + 1)) r).1.jobs = r.jobs :=
        waitOnce_invariant (P := fun l => l.jobs = r.jobs) (fun _ _ _ _ h => h) _ rfl
      rcases hwait : waitOnce (some (n + 1)) r with ⟨r', _ | left⟩ <;>
        rw [hwait] at htells hall hmakes hjobs <;> simp only [await, hwait]
      · obtain ⟨ha', hb'⟩ := hagain r' rest (ha.makes hmakes hjobs) (hmakes.balanced hb)
        obtain ⟨st'', htells', hw', hall'⟩ :=
          ih (r := { r'.interruptPrograms with session.interrupts := rest }) htells ha' hb'
            (hw.steady hs)
        exact ⟨st'', htells', hw.trans hw', fun job hj => hall' job (hjobs ▸ hj)⟩
      · exact ⟨st', htells, hw, hall (by simp)⟩

/-- When the shell stops waiting, every program that was started has ended, and nothing else has
happened to the stages. -/
theorem tells_join (h : r.Tells st) (ha : r.Attended) (hb : r.Balanced) (hs : Steady st) :
    ∃ st', r.join.Tells st' ∧ Waits st st' ∧
      ∀ i pid, (st i).process? = some pid → ∃ e, st' i = .settled (.ended pid e) := by
  have hnote := ha.within.makes_note (.waiting r.kernel.held)
  obtain ⟨st', htells, hw, hall⟩ := tells_await (r := r.note (.waiting r.kernel.held))
    (r.note (.waiting r.kernel.held)).session.interrupts
    (h.aside (.waiting r.kernel.held) rfl rfl rfl rfl rfl rfl) (ha.makes hnote rfl)
    (hnote.balanced hb) hs
  exact ⟨st', htells, hw, fun i pid hp => hall ⟨i, pid⟩ ((h.jobs i pid).mpr hp)⟩

end Run

end CommandShell.Pipeline
