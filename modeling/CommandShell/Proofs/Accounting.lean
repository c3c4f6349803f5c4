import CommandShell.Proofs.Waiting

/-!
# The accounts of a pipeline

At every point of a run as many stages are left as have no result. When a pipeline has been run,
nothing is left: every stage has the result that its end stands for, and every program that was
started has been waited for. An interrupt of a builtin marks the later builtins as interrupted, and
they are not called.

## Main statements

- `Pipeline.accounted_runWired`: the accounts of a pipeline whose files are open.
- `Pipeline.stages_accounted`: the accounts of a pipeline, whatever comes of running it.
-/

namespace CommandShell.Pipeline

/-- How a stage can end. -/
inductive Ended : Stage.Target → Cause → Prop
  | missing : Ended (.program none) .missing
  | refused (path : Path) : Ended (.program (some path)) .refused
  | ended (path : Path) (pid : Nat) (e : Exit) : Ended (.program (some path)) (.ended pid e)
  | returned (b : Builtin) (ending : Except Halt Int) : Ended (.builtin b) (.returned ending)
  | skipped (b : Builtin) : Ended (.builtin b) .skipped

/-- The accounts are settled: nothing is left, and each stage has a result, namely the verdict on
how it has ended. -/
structure Outcome.Settled (stages : List Stage) (o : Outcome) : Prop where
  remaining : o.remaining = 0
  results : ∀ i stage, stages[i]? = some stage → Ended stage.target (causeIn o.history i) ∧
    ∃ result, o.results[i]? = some (some result) ∧ result.command = stage.command ∧
      (causeIn o.history i).verdict = some (result.status, result.pid)
  waited : ∀ i pid, .started i pid ∈ o.history → ∃ e, causeIn o.history i = .ended pid e
  status : ∀ status, o.ending = .ok status →
    ∃ result, o.results.getLast? = some (some result) ∧ result.status = status

/-- The builtins have come to an end of their own, up to one of them. -/
def Outcome.CalmBelow (stages : List Stage) (o : Outcome) (n : Nat) : Prop :=
  ∀ i, i < n → Run.isBuiltinAt stages i → ∃ ending, Run.Calm ending ∧
    causeIn o.history i = .returned ending

/-- A builtin was interrupted: those before it have ended by themselves, those after it were never
called, and it has the same status as they. -/
structure Outcome.Interrupted (stages : List Stage) (o : Outcome) (j : Nat) : Prop where
  isBuiltin : Run.isBuiltinAt stages j
  at_eq : causeIn o.history j = .returned (.error .interrupt)
  before : o.CalmBelow stages j
  after : ∀ i, j < i → Run.isBuiltinAt stages i → .called i ∉ o.history
  statuses : ∀ i, j ≤ i → Run.isBuiltinAt stages i →
    ∃ result, o.results[i]? = some (some result) ∧ result.status = statusInterrupted

/-- The accounts of a run: the stages that are left are always counted right, and they are settled
in the end unless there was a fault. -/
structure Outcome.Accounted (stages : List Stage) (o : Outcome) : Prop where
  counts : Counts stages.length o.history o.results o.remaining
  settled : (∀ f, o.ending ≠ .error (.fault f)) → o.Settled stages
  calm : ∀ status, o.ending = .ok status → o.CalmBelow stages stages.length
  interrupted : o.ending = .error .interrupt → ∃ j, o.Interrupted stages j

/-- How far a stage has got when nothing is left but to wait for programs. -/
inductive Ready : Stage.Target → StageState → Prop
  | program {path : Option Path} {s : StageState} (h : Run.Launched (.program path) s) :
    Ready (.program path) s
  | builtin {b : Builtin} {c : Cause} (h : Ended (.builtin b) c) : Ready (.builtin b) (.settled c)

theorem Ready.of_called {target : Stage.Target} {s : StageState} (h : Run.Called target s) :
    Ready target s := by
  cases h with
  | program h => exact .program h
  | builtin b _ => exact .builtin (.returned b _)

/-- A stage that is ready either has ended or is a program that runs. -/
theorem Ready.cases {target : Stage.Target} {s : StageState} (h : Ready target s) :
    (s.process? = none ∧ ∃ c, s = .settled c ∧ Ended target c) ∨
      ∃ path pid, target = .program (some path) ∧ s = .running pid := by
  cases h with
  | program h =>
    cases h with
    | missing => exact .inl ⟨rfl, _, rfl, .missing⟩
    | refused path => exact .inl ⟨rfl, _, rfl, .refused path⟩
    | running path pid => exact .inr ⟨path, pid, rfl, rfl⟩
  | builtin h =>
    refine .inl ⟨?_, _, rfl, h⟩
    cases h <;> rfl

theorem Waits.eq_of_process? {st st' : Nat → StageState} (h : Waits st st') {i : Nat}
    (hp : (st i).process? = none) : st' i = st i := by
  obtain heq | ⟨pid, e, hsome, -⟩ := h i
  · exact heq
  · simp [hp] at hsome

namespace Run

variable {r : Run} {st : Nat → StageState}

/-- When the shell stops waiting, all stages have ended. -/
theorem tells_join_of_ready (h : r.Tells st) (ha : r.Attended) (hb : r.Balanced)
    (hready : ∀ i stage, r.stages[i]? = some stage → Ready stage.target (st i)) :
    ∃ st', r.join.Tells st' ∧ (∀ i, (st i).process? = none → st' i = st i) ∧
      ∀ i stage, r.stages[i]? = some stage → ∃ c, st' i = .settled c ∧ Ended stage.target c := by
  have hsteady : Steady st := by
    intro i pid hp
    obtain ⟨stage, hstage⟩ := h.exists_stage hp
    obtain ⟨hnone, -⟩ | ⟨-, pid', -, hs⟩ := (hready i stage hstage).cases
    · simp [hnone] at hp
    · rw [hs] at hp ⊢
      obtain rfl : pid' = pid := Option.some.inj hp
      exact .inl rfl
  obtain ⟨st', htells, hw, hended⟩ := tells_join h ha hb hsteady
  refine ⟨st', htells, fun i => hw.eq_of_process?, fun i stage hstage => ?_⟩
  obtain ⟨hnone, c, hs, hc⟩ | ⟨path, pid, htarget, hs⟩ := (hready i stage hstage).cases
  · exact ⟨c, (hw.eq_of_process? hnone).trans hs, hc⟩
  · obtain ⟨e, he⟩ := hended i pid (by rw [hs]; rfl)
    exact ⟨_, he, htarget ▸ .ended path pid e⟩

theorem tells_tidy (h : r.Tells st) : r.tidy.Tells st := tells_closeEnds h r.openEnds

/-- When all stages have ended, the accounts are settled. -/
theorem settled_of_tells (h : r.Tells st) (hne : r.stages ≠ [])
    (hended : ∀ i stage, r.stages[i]? = some stage → ∃ c, st i = .settled c ∧ Ended stage.target c)
    (ending : Except Halt Int) (hstatus : ∀ status, ending = .ok status → status = r.lastStatus) :
    (r.outcome ending).Settled r.stages := by
  have hlength : r.results.length = r.stages.length := by
    rw [h.counted.results, length_replay]
  have hresult (i : Nat) (stage : Stage) (hstage : r.stages[i]? = some stage) :
      Ended stage.target (causeIn r.history i) ∧
        ∃ result, r.results[i]? = some (some result) ∧ result.command = stage.command ∧
          (causeIn r.history i).verdict = some (result.status, result.pid) := by
    obtain ⟨c, hs, hc⟩ := hended i stage hstage
    obtain ⟨result, hget, hagrees⟩ := h.results i stage hstage
    rw [hs] at hagrees
    obtain ⟨v, hv, rfl⟩ := hagrees
    rw [causeIn_of_lives (h.lives i), hs]
    exact ⟨hc, _, hget, rfl, hv⟩
  refine ⟨?_, hresult, fun i pid hstarted => ?_, fun status hs => ?_⟩
  · change r.remaining = 0
    rw [h.counted.remaining_eq, List.countP_eq_zero]
    intro result hmem
    obtain ⟨i, hi, rfl⟩ := List.mem_iff_getElem.mp hmem
    obtain ⟨-, result, hget, -⟩ := hresult i _ (List.getElem?_eq_getElem (hlength ▸ hi))
    rw [List.getElem?_eq_getElem hi] at hget
    simp [Option.some.inj hget]
  · have hp := (started_mem_iff (h.lives i) pid).mp hstarted
    obtain ⟨stage, hstage⟩ := h.exists_stage hp
    obtain ⟨c, hs, -⟩ := hended i stage hstage
    change ∃ e, causeIn r.history i = _
    rw [causeIn_of_lives (h.lives i), hs]
    rw [hs] at hp
    cases c with
    | ended pid' e =>
      obtain rfl : pid' = pid := Option.some.inj hp
      exact ⟨e, rfl⟩
    | _ => cases hp
  · have hlast : r.results.getLast? = r.results[r.stages.length - 1]? := by
      rw [List.getLast?_eq_getElem?, hlength]
    obtain ⟨stage, hstage⟩ : ∃ stage, r.stages[r.stages.length - 1]? = some stage :=
      ⟨_, List.getElem?_eq_getElem (Nat.sub_lt (List.length_pos_iff.mpr hne) Nat.one_pos)⟩
    obtain ⟨-, result, hget, -⟩ := hresult _ stage hstage
    refine ⟨result, hlast.trans hget, ?_⟩
    rw [hstatus status hs, lastStatus, hlast, hget]

/-- A builtin that halts the others with an interrupt leaves them to be marked. -/
theorem ready_of_halted {stages : List Stage} {st' : Nat → StageState} {j : Nat}
    (hh : Halted stages st j (.due (.returned (.error .interrupt))))
    (hmarked : ∀ i stage, stages[i]? = some stage →
      st' i = if stage.isBuiltin then (st i).interrupted else st i)
    {i : Nat} {stage : Stage} (hstage : stages[i]? = some stage) : Ready stage.target (st' i) := by
  rw [hmarked i stage hstage]
  cases htarget : stage.target with
  | program path =>
    rw [if_neg (by simp [Stage.isBuiltin, htarget])]
    rcases Nat.lt_trichotomy i j with hi | rfl | hi
    · exact .of_called (htarget ▸ hh.before i stage hi hstage)
    · obtain ⟨stage', hstage', hb⟩ := hh.isBuiltin
      obtain rfl := Option.some.inj (hstage'.symm.trans hstage)
      simp [Stage.isBuiltin, htarget] at hb
    · exact .program (htarget ▸ hh.after i stage hi hstage)
  | builtin b =>
    have hb : isBuiltinAt stages i := ⟨stage, hstage, by simp [Stage.isBuiltin, htarget]⟩
    rw [if_pos (by simp [Stage.isBuiltin, htarget])]
    rcases Nat.lt_trichotomy i j with hi | rfl | hi
    · obtain ⟨ending, -, hs⟩ := hh.earlier hi hb
      rw [hs]
      exact .builtin (.returned b ending)
    · rw [hh.at_eq]
      exact .builtin (.returned b _)
    · rw [hh.later hi hb]
      exact .builtin (.skipped b)

/-- What is told of the builtins that have been called. -/
theorem calmBelow_of_tells (h : r.Tells st) {n : Nat} (ending : Except Halt Int)
    (hcalled : ∀ i stage, i < n → r.stages[i]? = some stage → stage.isBuiltin →
      ∃ e, Calm e ∧ st i = .settled (.returned e)) : (r.outcome ending).CalmBelow r.stages n := by
  rintro i hi ⟨stage, hstage, hb⟩
  obtain ⟨e, hcalm, hs⟩ := hcalled i stage hi hstage hb
  refine ⟨e, hcalm, ?_⟩
  change causeIn r.history i = _
  rw [causeIn_of_lives (h.lives i), hs]
  rfl

/-- The builtins have been called, and the shell waits for the programs. -/
theorem accounted_join (h : r.Tells st) (ha : r.Attended) (hb : r.Balanced) (hne : r.stages ≠ [])
    (hcalled : ∀ i stage, r.stages[i]? = some stage → Called stage.target (st i)) :
    (r.join.tidy.outcome (.ok r.join.tidy.lastStatus)).Accounted r.stages := by
  obtain ⟨st', hjoined, hkept, hended⟩ :=
    tells_join_of_ready h ha hb fun i stage hs => .of_called (hcalled i stage hs)
  have htidy := tells_tidy hjoined
  have hstages : r.join.tidy.stages = r.stages := (stages_closeEnds _ _).trans r.stages_join
  rw [← hstages] at hended hne ⊢
  refine ⟨htidy.counted, fun _ => settled_of_tells htidy hne hended _ ?_, fun status _ => ?_, ?_⟩
  · rintro status hs
    exact (Except.ok.inj hs).symm
  · refine calmBelow_of_tells htidy _ fun i stage _ hstage hbuiltin => ?_
    have hcall := hcalled i stage (hstages ▸ hstage)
    cases htarget : stage.target with
    | program path => simp [Stage.isBuiltin, htarget] at hbuiltin
    | builtin b =>
      rw [htarget] at hcall
      obtain ⟨ending, hcalm, hs⟩ := hcall.returned
      exact ⟨ending, hcalm, (hkept i (by rw [hs]; rfl)).trans hs⟩
  · simp [Run.outcome]

/-- What an interrupt of a builtin has made of the builtins. -/
theorem interrupted_of_halted {st₁ st' : Nat → StageState} {j : Nat} (h : r.Tells st')
    (hsettled : (r.outcome (.error .interrupt)).Settled r.stages)
    (hh : Halted r.stages st j (.due (.returned (.error .interrupt))))
    (hmarked : ∀ i stage, r.stages[i]? = some stage →
      st₁ i = if stage.isBuiltin then (st i).interrupted else st i)
    (hkept : ∀ i, (st₁ i).process? = none → st' i = st₁ i) :
    (r.outcome (.error .interrupt)).Interrupted r.stages j := by
  have hbuiltin {i : Nat} {stage : Stage} (hstage : r.stages[i]? = some stage)
      (hb : stage.isBuiltin)
      {c : Cause} (hs : (st i).interrupted = .settled c) (hc : c.process? = none) :
        st' i = .settled c := by
    have hs₁ : st₁ i = .settled c := by rw [hmarked i stage hstage, if_pos hb, hs]
    exact (hkept i (by rw [hs₁]; exact hc)).trans hs₁
  have hat : st' j = .settled (.returned (.error .interrupt)) := by
    obtain ⟨stage, hstage, hb⟩ := hh.isBuiltin
    exact hbuiltin hstage hb (by rw [hh.at_eq]; rfl) rfl
  have hafter (i : Nat) (hi : j < i) (hb : isBuiltinAt r.stages i) : st' i = .settled .skipped := by
    have hidle := hh.later hi hb
    obtain ⟨stage, hstage, hb⟩ := hb
    exact hbuiltin hstage hb (by rw [hidle]; rfl) rfl
  have hcause (i : Nat) : causeIn r.history i = (st' i).cause := causeIn_of_lives (h.lives i)
  refine ⟨hh.isBuiltin, (hcause j).trans (by rw [hat]; rfl), ?_, fun i hi hb hcalled => ?_,
    fun i hi hb => ?_⟩
  · refine calmBelow_of_tells h _ fun i stage hi hstage hb => ?_
    obtain ⟨ending, hcalm, hs⟩ := hh.earlier hi ⟨stage, hstage, hb⟩
    exact ⟨ending, hcalm, hbuiltin hstage hb (by rw [hs]; rfl) rfl⟩
  · have hmark := (called_mem_iff (h.lives i)).mp hcalled
    rw [hafter i hi hb] at hmark
    cases hmark
  · have hverdict : (causeIn r.history i).verdict = some (statusInterrupted, none) := by
      rw [hcause]
      rcases Nat.eq_or_lt_of_le hi with rfl | hi
      · rw [hat]
        rfl
      · rw [hafter i hi hb]
        rfl
    obtain ⟨stage, hstage, -⟩ := hb
    obtain ⟨-, result, hget, -, hv⟩ := hsettled.results i stage hstage
    have heq := Option.some.inj (hv.symm.trans hverdict)
    exact ⟨result, hget, congrArg Prod.fst heq⟩

/-- A builtin has been interrupted: the later ones are marked, and the shell waits for the
programs. -/
theorem accounted_interrupt (h : r.Tells st) (ha : r.Attended) (hb : r.Balanced)
    (hne : r.stages ≠ []) {j : Nat}
    (hh : Halted r.stages st j (.due (.returned (.error .interrupt)))) :
    ((r.interruptBuiltins r.stages.zipIdx).closeAll.interruptPrograms.join.tidy.outcome
      (.error .interrupt)).Accounted r.stages := by
  have hpending (i : Nat) (hi : isBuiltinAt r.stages i) :
      st i = .idle ∨ st i = .due (.returned (.error .interrupt)) ∨ ∃ c, st i = .settled c := by
    rcases Nat.lt_trichotomy i j with hlt | rfl | hlt
    · obtain ⟨ending, -, hs⟩ := hh.earlier hlt hi
      exact .inr (.inr ⟨_, hs⟩)
    · exact .inr (.inl hh.at_eq)
    · exact .inl (hh.later hlt hi)
  obtain ⟨st₁, hmarked, hst₁⟩ :=
    tells_interruptBuiltins (List.nil_append r.stages).symm h hpending
  have ha₁ := ha.interruptBuiltins r.stages.zipIdx
  have hb₁ := (ha.within.makes_interruptBuiltins r.stages.zipIdx).balanced hb
  have hstages₁ := r.stages_interruptBuiltins r.stages.zipIdx
  change (r.interruptBuiltins r.stages.zipIdx).Tells st₁ at hmarked
  replace hst₁ : ∀ i stage, r.stages[i]? = some stage →
      st₁ i = if stage.isBuiltin then (st i).interrupted else st i := by simpa using hst₁
  generalize r.interruptBuiltins r.stages.zipIdx = r₁ at hmarked ha₁ hb₁ hstages₁
  have ha₂ : r₁.closeAll.Attended := ha₁.closeEnds r₁.openEnds
  have hb₂ := (ha₁.within.makes_closeAll trivial).balanced hb₁
  have hsent := ha₂.within.makes_interruptPrograms
  have hstages₂ : r₁.closeAll.interruptPrograms.stages = r.stages :=
    (r₁.stages_closeEnds r₁.openEnds).trans hstages₁
  obtain ⟨st', hjoined, hkept, hended⟩ := tells_join_of_ready (r := r₁.closeAll.interruptPrograms)
    (tells_closeEnds hmarked r₁.openEnds) (ha₂.makes hsent rfl) (hsent.balanced hb₂)
    fun i stage hs => ready_of_halted hh hst₁ (hstages₂ ▸ hs)
  have hstages : r₁.closeAll.interruptPrograms.join.tidy.stages = r.stages :=
    (stages_closeEnds _ _).trans ((stages_join _).trans hstages₂)
  rw [hstages₂, ← hstages] at hended
  have htidy := tells_tidy hjoined
  generalize r₁.closeAll.interruptPrograms.join.tidy = r' at htidy hended hstages
  rw [← hstages] at hne hst₁ hh ⊢
  have hsettled := settled_of_tells htidy hne hended (.error .interrupt) (by simp)
  refine ⟨htidy.counted, fun _ => hsettled, fun status hs => (nomatch hs), fun _ => ⟨j, ?_⟩⟩
  exact interrupted_of_halted htidy hsettled hh hst₁ hkept

/-- A fault ends a run; no promise is made about its stages. -/
theorem accounted_fault (h : r.Tells st) (f : Fault) :
    (r.tidy.abandon.outcome (.error (.fault f))).Accounted r.stages := by
  have hcounted := (tells_tidy h).counted
  have hstages : r.tidy.stages = r.stages := stages_closeEnds _ _
  rw [← hstages]
  exact ⟨hcounted, fun hf => absurd rfl (hf f), fun _ hs => (nomatch hs), fun hs => (nomatch hs)⟩

/-- A builtin has halted a run other than by an interrupt. An exit does so only when it is alone. -/
theorem accounted_halt (h : r.Tells st) (hne : r.stages ≠ []) {halt : Halt}
    (hhalt : halt ≠ .interrupt) {j : Nat} {s : StageState} (hh : Halted r.stages st j s)
    (hr : Returned r.stages.length (some halt) s) :
    (r.tidy.abandon.outcome (.error halt)).Accounted r.stages := by
  cases hr with
  | interrupt => exact absurd rfl hhalt
  | fault f => exact accounted_fault h f
  | exit code hone =>
    have htidy := tells_tidy h
    have hstages : r.tidy.stages = r.stages := stages_closeEnds _ _
    have hended (i : Nat) (stage : Stage) (hstage : r.stages[i]? = some stage) :
        ∃ c, st i = .settled c ∧ Ended stage.target c := by
      obtain ⟨stage', hstage', hb⟩ := hh.isBuiltin
      have hi := (List.getElem?_eq_some_iff.mp hstage).1
      have hj := (List.getElem?_eq_some_iff.mp hstage').1
      obtain rfl : i = j := by omega
      obtain rfl := Option.some.inj (hstage'.symm.trans hstage)
      refine ⟨_, hh.at_eq, ?_⟩
      cases htarget : stage'.target with
      | program path => simp [Stage.isBuiltin, htarget] at hb
      | builtin b => exact .returned b _
    rw [← hstages] at hne hended ⊢
    exact ⟨htidy.counted, fun _ =>
      settled_of_tells (r := r.tidy.abandon) htidy hne hended _ (by simp),
      fun _ hs => (by cases hs), fun hs => (by cases hs)⟩

end Run

/-- The accounts of a pipeline whose files are open. -/
theorem accounted_runWired (depth : Nat) {s : Session} (hs : s.world.toKernel.Numbered)
    {stages : List Stage} (hne : stages ≠ []) (wiring : Wiring) (stops : Nat → Option Nat) :
    (runWired (Shell.capture depth) s stages wiring stops).Accounted stages := by
  have ha := Run.attended_init hs stages wiring
  have hb : (Run.init s stages wiring).Balanced := rfl
  obtain ⟨st, hspawned, hlaunched, hfault⟩ := Run.tells_spawnAll (r := Run.init s stages wiring)
    (List.nil_append stages).symm (Ledger.tells_ofStages stages) (by simp) fun _ _ => rfl
  have ha' := ha.spawnAll stages.zipIdx
  have hb' := (ha.within.makes_spawnAll trivial stages.zipIdx).balanced hb
  have hstages := Run.stages_spawnAll stages.zipIdx (Run.init s stages wiring)
  unfold runWired
  extract_lets indexed
  rcases hr : Run.spawnAll indexed (Run.init s stages wiring) with ⟨_ | halt, r⟩ <;>
    simp only [List.length_nil, indexed] at hspawned hlaunched hfault ha' hb' hstages hr <;>
    rw [hr] at hspawned hlaunched hfault ha' hb' hstages <;> dsimp only
  · replace hstages : r.stages = stages := hstages
    obtain rfl := hstages
    obtain ⟨st', htells, hcalls⟩ := Run.tells_runBuiltins (Shell.capture depth) stops
      (List.nil_append r.stages).symm hspawned (by simp) fun i stage _ hstage =>
        hlaunched rfl i stage hstage
    have ha'' := ha'.runBuiltins depth r.stages.zipIdx stops
    have hb'' := (ha'.within.makes_runBuiltins trivial (Shell.captureWithin_sparing _ depth)
      r.stages.zipIdx stops).balanced hb'
    have hkept := Run.stages_runBuiltins (Shell.capture depth) r.stages.zipIdx r stops
    rcases hr' : Run.runBuiltins (Shell.capture depth) indexed r stops with ⟨_ | halt, r'⟩ <;>
      simp only [List.length_nil, indexed] at htells hcalls ha'' hb'' hkept hr' <;>
      rw [hr'] at htells hcalls ha'' hb'' hkept <;> dsimp only at hcalls hkept ⊢
    · rw [← hkept] at hne hcalls ⊢
      exact Run.accounted_join htells ha'' hb'' hne hcalls
    · obtain ⟨j, state, hh, hreturned⟩ := hcalls
      unfold indexed
      rw [← hkept] at hne hh hreturned ⊢
      split
      · next heq => cases heq
      · next heq =>
        obtain ⟨h₁, rfl⟩ := Prod.mk.inj heq
        cases h₁
        cases hreturned
        exact Run.accounted_interrupt htells ha'' hb'' hne hh
      · next hother heq =>
        obtain ⟨h₁, rfl⟩ := Prod.mk.inj heq
        cases h₁
        exact Run.accounted_halt htells hne (fun h => hother (h ▸ rfl)) hh hreturned
  · obtain ⟨f, rfl⟩ := hfault halt rfl
    replace hstages : r.stages = stages := hstages
    exact hstages ▸ Run.accounted_fault hspawned f

/-- If a file of the last stage cannot be opened, no stage is run. -/
theorem run_of_error (capture : Builtin.Capture) {s s' : Session} {stages : List Stage}
    {last : Stage} (hlast : stages.getLast? = some last) {f : Fault}
    (ho : openRedirections s last.redirections = (.error f, s')) (stops : Nat → Option Nat) :
    ∃ s'', run capture s stages stops =
      unrun s'' stages (match f with | .system _ _ => .ok 1 | f => .error (.fault f)) := by
  simp only [run, hlast, ho]
  cases f <;> exact ⟨_, rfl⟩

/-- Running a pipeline keeps the numbers of the tasks in order. -/
theorem numbered_run (depth : Nat) {s : Session} (hs : s.world.toKernel.Numbered)
    (stages : List Stage) (stops : Nat → Option Nat) :
    (run (Shell.capture depth) s stages stops).session.world.toKernel.Numbered := by
  have hfull : (Scope.sparing fun _ => False).Full := ⟨trivial, fun _ _ h => h⟩
  have hmade := makes_run hfull (Shell.captureWithin_capture hfull depth)
    (Session.within_sparing hs) stages stops
  exact hmade.wards hs

end CommandShell.Pipeline
