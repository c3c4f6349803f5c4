import CommandShell.Proofs.Ledger.Ends
import CommandShell.Proofs.Ledger.Stages

/-!
# How far the stages get

Starting the programs settles the stages that have no program or whose program cannot be started.
Calling the builtins settles the builtins, up to one that halts the others. An interrupt settles the
builtins that are left.

## Main statements

- `Run.tells_spawnAll`: the stages once the programs have been started.
- `Run.tells_runBuiltins`: the stages once the builtins have been called, or one has halted the
  others.
- `Run.tells_interruptBuiltins`: the builtins once they have been marked as interrupted.
-/

namespace CommandShell.Pipeline

namespace Run

variable {r : Run} {st : Nat → StageState}

theorem tells_closeEnd (h : r.Tells st) (e : CouplerEnd) : (r.closeEnd e).Tells st := by
  rw [toLedger_closeEnd]
  split
  · exact h.aside (.closed e) rfl rfl rfl rfl rfl rfl
  · exact h

theorem tells_closeEnds (h : r.Tells st) (ends : List CouplerEnd) :
    (r.closeEnds ends).Tells st := by
  unfold closeEnds
  induction ends generalizing r with
  | nil => exact h
  | cons e rest ih => exact ih (tells_closeEnd h e)

theorem tells_handAll (h : r.Tells st) (i : Nat) (ends : List CouplerEnd) :
    (r.handAll i ends).Tells st := by
  unfold handAll
  induction ends generalizing r with
  | nil => exact h
  | cons e rest ih =>
    exact ih (r := r.note (.handed e i)) (h.aside (.handed e i) rfl rfl rfl rfl rfl rfl)

/-- How far a stage gets before any builtin is called. -/
inductive Launched : Stage.Target → StageState → Prop
  | builtin (b : Builtin) : Launched (.builtin b) .idle
  | missing : Launched (.program none) (.settled .missing)
  | refused (path : Path) : Launched (.program (some path)) (.settled .refused)
  | running (path : Path) (pid : Nat) : Launched (.program (some path)) (.running pid)

theorem Launched.idle {b : Builtin} {s : StageState} (h : Launched (.builtin b) s) : s = .idle := by
  cases h
  rfl

theorem tells_spawnProgram {i : Nat} {stage : Stage} (hstage : r.stages[i]? = some stage)
    (h : r.Tells st) (hs : st i = .idle) (path : Path) :
    ∃ s, (r.spawnProgram i stage path).2.Tells (Function.update st i s) ∧
      ((r.spawnProgram i stage path).1 = none → Launched (.program (some path)) s) ∧
      ∀ halt, (r.spawnProgram i stage path).1 = some halt → ∃ f, halt = .fault f := by
  have hrouted := r.toLedger_descriptorsFor i stage.redirections.merges
  unfold spawnProgram
  extract_lets ends
  generalize r.descriptorsFor i stage.redirections.merges = routed at hrouted
  obtain ⟨r₁, descriptors, streams⟩ := routed
  have hhanded : (r₁.handAll i ends).Tells st := tells_handAll (hrouted ▸ h) i ends
  have hstage' : (r₁.handAll i ends).stages[i]? = some stage := by
    rw [stages_handAll, hrouted]
    exact hstage
  dsimp only
  generalize r₁.handAll i ends = r₂ at hhanded hstage'
  split
  · refine ⟨st i, ?_, by simp, fun halt hh => ⟨_, (Option.some.inj hh).symm⟩⟩
    rw [Function.update_eq_self]
    exact tells_closeEnds hhanded ends
  · split
    · exact ⟨_, tells_closeEnds (r := r₂.cannotStart i stage _) (hhanded.refuse hstage' hs) ends,
        fun _ => .refused path, by simp⟩
    · refine ⟨_, ?_, fun _ => .running path r₂.kernel.nextPid, by simp⟩
      rw [toLedger_attach, toLedger_log]
      exact tells_closeEnds (hhanded.start hstage' hs _) ends

theorem tells_spawn {i : Nat} {stage : Stage} (hstage : r.stages[i]? = some stage)
    (h : r.Tells st) (hs : st i = .idle) :
    ∃ s, (r.spawn i stage).2.Tells (Function.update st i s) ∧
      ((r.spawn i stage).1 = none → Launched stage.target s) ∧
      ∀ halt, (r.spawn i stage).1 = some halt → ∃ f, halt = .fault f := by
  unfold spawn
  split
  · next b ht =>
    refine ⟨.idle, ?_, fun _ => ht ▸ .builtin b, by simp⟩
    rw [← hs, Function.update_eq_self]
    exact tells_closeEnds h _
  · next ht =>
    exact ⟨_, tells_closeEnds (r := r.notFound i stage) (h.miss hstage hs) _, fun _ =>
      ht ▸ .missing, by simp⟩
  · next path ht => exact ht ▸ tells_spawnProgram hstage h hs path

theorem tells_spawnAll {done todo : List Stage} (hstages : r.stages = done ++ todo) (h : r.Tells st)
    (hdone : ∀ i stage, i < done.length → r.stages[i]? = some stage → Launched stage.target (st i))
    (htodo : ∀ i, done.length ≤ i → st i = .idle) :
    ∃ st', (spawnAll (todo.zipIdx done.length) r).2.Tells st' ∧
      ((spawnAll (todo.zipIdx done.length) r).1 = none →
        ∀ i stage, r.stages[i]? = some stage → Launched stage.target (st' i)) ∧
      ∀ halt, (spawnAll (todo.zipIdx done.length) r).1 = some halt → ∃ f, halt = .fault f := by
  induction todo generalizing r st done with
  | nil =>
    refine ⟨st, h, fun _ i stage hstage => hdone i stage ?_ hstage, by simp [spawnAll]⟩
    simpa [hstages] using (List.getElem?_eq_some_iff.mp hstage).1
  | cons stage rest ih =>
    rw [List.zipIdx_cons]
    have hstage : r.stages[done.length]? = some stage := by simp [hstages]
    obtain ⟨s, hnext, hlaunched, hhalt⟩ := tells_spawn hstage h (htodo _ (Nat.le_refl _))
    have hkeep := r.stages_spawn done.length stage
    have hlength : (done ++ [stage]).length = done.length + 1 := by simp
    rcases hspawn : r.spawn done.length stage with ⟨_ | halt, r'⟩ <;>
      simp only [hspawn] at hnext hlaunched hhalt hkeep <;> simp only [spawnAll, hspawn]
    · rw [← hlength, ← hkeep]
      refine ih (by simp [hkeep, hstages]) hnext (fun i stage' hi hget => ?_) fun i hi => ?_
      · rw [Function.update_apply]
        split
        · next heq =>
          obtain rfl : stage = stage' := by
            rw [hkeep, heq, hstage] at hget
            exact Option.some.inj hget
          exact hlaunched trivial
        · next hne => exact hdone i stage' (by omega) (hkeep ▸ hget)
      · rw [Function.update_of_ne (by omega)]
        exact htodo i (by omega)
    · exact ⟨_, hnext, fun hn => (by cases hn), hhalt⟩

/-- A builtin is called and returns. -/
theorem tells_callBuiltin {r' : Run} {capture : Builtin.Capture} {i : Nat} {stage : Stage}
    {b : Builtin} {stops : Nat → Option Nat} {ending : Except Halt Int}
    (hcall : r.callBuiltin capture i stage b stops = (ending, r')) (h : r.Tells st)
    (hstage : r.stages[i]? = some stage) (hs : st i = .idle) :
    r'.Tells (Function.update st i (.due (.returned ending))) := by
  have hl := toLedger_callBuiltin hcall
  have hcalled (l : Ledger) (hl : l.Tells st) (hstage : l.stages[i]? = some stage) :
      ((l.note (.called i)).note (.returned i ending)).Tells
      (Function.update st i (.due (.returned ending))) := by
    have hfirst := hl.note hstage (x := .called i) (s := .called) (hs ▸ .called) rfl rfl
      (fun _ _ hr => by rwa [hs] at hr) (by rw [hs]; rfl)
    have hself : Function.update st i .called i = .called := Function.update_self ..
    have hstep : StageState.Step i (Function.update st i .called i) (.returned i ending)
        (.due (.returned ending)) := by
      rw [hself]
      exact .returned ending
    have hsecond :=
      hfirst.note hstage hstep rfl rfl (fun _ _ hr => by rwa [hself] at hr) (by rw [hself]; rfl)
    rwa [Function.update_idem] at hsecond
  rw [hl]
  split
  · exact hcalled _ h hstage
  · have hwrapped : (r.toLedger.wrap (.write i)).Tells st :=
      h.aside (.wrapped (.write i)) rfl rfl rfl rfl rfl rfl
    exact (hcalled _ hwrapped hstage).aside (.closed (.write i)) rfl rfl rfl rfl rfl rfl

/-- A builtin has come to an end of its own. -/
def Calm (ending : Except Halt Int) : Prop :=
  ∃ status, ending = .ok status ∨ ending = .error (.exit status)

/-- How a builtin may halt the builtins, and what becomes of its stage. -/
inductive Returned (count : Nat) : Option Halt → StageState → Prop
  | calm {ending : Except Halt Int} (h : Calm ending) :
    Returned count none (.settled (.returned ending))
  | exit (code : Int) (h : count = 1) :
    Returned count (some (.exit code)) (.settled (.returned (.error (.exit code))))
  | interrupt : Returned count (some .interrupt) (.due (.returned (.error .interrupt)))
  | fault (f : Fault) : Returned count (some (.fault f)) (.due (.returned (.error (.fault f))))

theorem tells_runBuiltin (capture : Builtin.Capture) (stops : Nat → Option Nat) {i : Nat}
    {stage : Stage} (b : Builtin)
    (hstage : r.stages[i]? = some stage) (h : r.Tells st) (hs : st i = .idle) :
    ∃ s, (r.runBuiltin capture i stage b stops).2.Tells (Function.update st i s) ∧
      Returned r.stages.length (r.runBuiltin capture i stage b stops).1 s := by
  have hself (ending : Except Halt Int) :
      Function.update st i (.due (.returned ending)) i = .due (.returned ending) :=
    Function.update_self ..
  unfold runBuiltin
  split
  · next status r' hcall =>
    have hkept := stages_callBuiltin hcall
    have hdone :=
      (tells_callBuiltin hcall h hstage hs).complete (hkept ▸ hstage) (c := .returned (.ok status))
      rfl (.inl (hself _))
    rw [Function.update_idem] at hdone
    exact ⟨_, hdone, .calm ⟨status, .inl rfl⟩⟩
  · next code r' hcall =>
    have hkept := stages_callBuiltin hcall
    have hdone := (tells_callBuiltin hcall h hstage hs).complete (hkept ▸ hstage)
      (c := .returned (.error (.exit code))) rfl (.inl (hself _))
    rw [Function.update_idem] at hdone
    refine ⟨_, hdone, ?_⟩
    split
    · next hone => exact .exit code (hkept ▸ hone)
    · exact .calm ⟨code, .inr rfl⟩
  · next halt r' hother hcall =>
    refine ⟨_, tells_callBuiltin hcall h hstage hs, ?_⟩
    cases halt with
    | exit code => exact absurd rfl (hother code)
    | interrupt => exact .interrupt
    | fault f => exact .fault f

/-- How far a stage gets until all builtins have been called. -/
inductive Called : Stage.Target → StageState → Prop
  | program {path : Option Path} {s : StageState} (h : Launched (.program path) s) :
    Called (.program path) s
  | builtin (b : Builtin) {ending : Except Halt Int} (h : Calm ending) :
    Called (.builtin b) (.settled (.returned ending))

theorem Called.returned {b : Builtin} {s : StageState} (h : Called (.builtin b) s) :
    ∃ ending, Calm ending ∧ s = .settled (.returned ending) := by
  cases h with
  | builtin _ hcalm => exact ⟨_, hcalm, rfl⟩

/-- How far the stages have got when a builtin halts the others. -/
structure Halted (stages : List Stage) (st : Nat → StageState) (j : Nat)
    (s : StageState) : Prop where
  isBuiltin : isBuiltinAt stages j
  at_eq : st j = s
  before : ∀ i stage, i < j → stages[i]? = some stage → Called stage.target (st i)
  after : ∀ i stage, j < i → stages[i]? = some stage → Launched stage.target (st i)

namespace Halted

variable {stages : List Stage} {i j : Nat} {s : StageState}

/-- The builtins before the one that halts have come to an end. -/
theorem earlier (h : Halted stages st j s) (hi : i < j) (hb : isBuiltinAt stages i) :
    ∃ ending, Calm ending ∧ st i = .settled (.returned ending) := by
  obtain ⟨stage, hstage, hb⟩ := hb
  have hcalled := h.before i stage hi hstage
  cases htarget : stage.target with
  | program path => simp [Stage.isBuiltin, htarget] at hb
  | builtin b =>
    rw [htarget] at hcalled
    exact hcalled.returned

/-- The builtins after the one that halts are not called. -/
theorem later (h : Halted stages st j s) (hi : j < i) (hb : isBuiltinAt stages i) :
    st i = .idle := by
  obtain ⟨stage, hstage, hb⟩ := hb
  have hlaunched := h.after i stage hi hstage
  cases htarget : stage.target with
  | program path => simp [Stage.isBuiltin, htarget] at hb
  | builtin b =>
    rw [htarget] at hlaunched
    exact hlaunched.idle

end Halted

theorem tells_runBuiltins (capture : Builtin.Capture) (stops : Nat → Option Nat)
    {done todo : List Stage} (hstages : r.stages = done ++ todo) (h : r.Tells st)
    (hdone : ∀ i stage, i < done.length → r.stages[i]? = some stage → Called stage.target (st i))
    (htodo : ∀ i stage, done.length ≤ i → r.stages[i]? = some stage →
      Launched stage.target (st i)) :
    ∃ st', (runBuiltins capture (todo.zipIdx done.length) r stops).2.Tells st' ∧
      match (runBuiltins capture (todo.zipIdx done.length) r stops).1 with
      | none => ∀ i stage, r.stages[i]? = some stage → Called stage.target (st' i)
      | some halt => ∃ j s, Halted r.stages st' j s ∧ Returned r.stages.length (some halt) s := by
  induction todo generalizing r st done with
  | nil =>
    refine ⟨st, h, fun i stage hstage => hdone i stage ?_ hstage⟩
    simpa [hstages] using (List.getElem?_eq_some_iff.mp hstage).1
  | cons stage rest ih =>
    rw [List.zipIdx_cons]
    have hstage : r.stages[done.length]? = some stage := by simp [hstages]
    have hlaunched := htodo _ stage (Nat.le_refl _) hstage
    have hlength : (done ++ [stage]).length = done.length + 1 := by simp
    have heq (i : Nat) (stage' : Stage) (hi : i = done.length) (hget : r.stages[i]? = some stage') :
        stage' = stage := by
      rw [hi, hstage] at hget
      exact (Option.some.inj hget).symm
    cases htarget : stage.target with
    | program path =>
      simp only [runBuiltins, htarget]
      rw [← hlength]
      refine ih (by simp [hstages]) h (fun i stage' hi hget => ?_) fun i stage' hi =>
        htodo i stage' (by omega)
      by_cases hlt : i < done.length
      · exact hdone i stage' hlt hget
      · obtain rfl : i = done.length := by omega
        obtain rfl := heq _ stage' rfl hget
        rw [htarget] at hlaunched ⊢
        exact .program hlaunched
    | builtin b =>
      have hidle : st done.length = .idle := (htarget ▸ hlaunched : Launched (.builtin b) _).idle
      obtain ⟨s, hnext, hreturned⟩ := tells_runBuiltin capture stops b hstage h hidle
      have hkeep := r.stages_runBuiltin capture done.length stage b stops
      rcases hrun : r.runBuiltin capture done.length stage b stops with ⟨_ | halt, r'⟩ <;>
        simp only [hrun] at hnext hreturned hkeep <;> simp only [runBuiltins, htarget, hrun]
      · rw [← hkeep, ← hlength]
        refine ih (by simp [hkeep, hstages]) hnext (fun i stage' hi hget => ?_)
          fun i stage' hi hget => ?_
        · rw [hkeep] at hget
          by_cases hlt : i < done.length
          · rw [Function.update_of_ne (by omega)]
            exact hdone i stage' hlt hget
          · obtain rfl : i = done.length := by omega
            obtain rfl := heq _ stage' rfl hget
            rw [Function.update_self, htarget]
            cases hreturned with
            | calm hcalm => exact .builtin b hcalm
        · rw [Function.update_of_ne (by omega)]
          exact htodo i stage' (by omega) (hkeep ▸ hget)
      · refine ⟨_, hnext, done.length, s, ⟨⟨stage, hstage, by simp [Stage.isBuiltin, htarget]⟩,
          Function.update_self .., fun i stage' hi hget => ?_, fun i stage' hi hget =>
            ?_⟩, hreturned⟩
        · rw [Function.update_of_ne (by omega)]
          exact hdone i stage' hi hget
        · rw [Function.update_of_ne (by omega)]
          exact htodo i stage' (by omega) hget

/-- Marking the builtins as interrupted settles those that have no result. -/
theorem tells_interruptBuiltins {done todo : List Stage} (hstages : r.stages = done ++ todo)
    (h : r.Tells st)
    (hbuiltin : ∀ i, isBuiltinAt r.stages i →
      st i = .idle ∨ st i = .due (.returned (.error .interrupt)) ∨ ∃ c, st i = .settled c) :
    ∃ st', (r.interruptBuiltins (todo.zipIdx done.length)).Tells st' ∧
      ∀ i stage, r.stages[i]? = some stage →
        st' i = if done.length ≤ i ∧ stage.isBuiltin then (st i).interrupted else st i := by
  induction todo generalizing r st done with
  | nil =>
    refine ⟨st, h, fun i stage hget => ?_⟩
    have hlt : i < done.length := by simpa [hstages] using (List.getElem?_eq_some_iff.mp hget).1
    rw [if_neg (by omega)]
  | cons stage rest ih =>
    have hstage : r.stages[done.length]? = some stage := by simp [hstages]
    have hlength : (done ++ [stage]).length = done.length + 1 := by simp
    -- what becomes of this stage
    obtain ⟨r', hr', hkept, hfirst⟩ : ∃ r' : Run,
        r' = (if stage.isBuiltin then r.completePending done.length statusInterrupted else r) ∧
        r'.stages = r.stages ∧ r'.Tells (Function.update st done.length
          (if stage.isBuiltin then (st done.length).interrupted else st done.length)) := by
      refine ⟨_, rfl, ?_⟩
      split
      · next hb =>
        refine ⟨?_, h.completePending hstage (hbuiltin _ ⟨stage, hstage, hb⟩)⟩
        rw [toLedger_completePending, Ledger.completePending]
        split <;> rfl
      · exact ⟨rfl, by rwa [Function.update_eq_self]⟩
    rw [List.zipIdx_cons, interruptBuiltins, ← hr', ← hlength]
    obtain ⟨st', hrest, hst'⟩ :=
      ih (r := r') (show r'.stages = (done ++ [stage]) ++ rest by simp [hkept, hstages]) hfirst
      fun i hi => by
        rw [Function.update_apply]
        split
        · next heq =>
          subst heq
          have hold := hbuiltin _ (hkept ▸ hi)
          split
          · obtain hs | hs | ⟨c, hs⟩ := hold <;> rw [hs] <;> exact .inr (.inr ⟨_, rfl⟩)
          · exact hold
        · exact hbuiltin i (hkept ▸ hi)
    refine ⟨st', hrest, fun i stage' hget => ?_⟩
    rw [hst' i stage' (hkept ▸ hget), Function.update_apply, hlength]
    by_cases hi : i = done.length
    · subst hi
      obtain rfl : stage = stage' := Option.some.inj (hstage.symm.trans hget)
      rw [if_neg (by omega), if_pos rfl]
      simp
    · simp only [if_neg hi]
      grind

end Run

end CommandShell.Pipeline
