import CommandShell.Pipeline
import CommandShell.Proofs.Builtin.Edits

/-!
# The ledger during a run

Most of what a run does leaves its ledger alone. The lemmas here say what each operation does with
the ledger; nothing that is proved about the ledger looks at the operations any further.

## Main statements

- `Run.toLedger_runUntil`: a builtin leaves the ledger of its run alone.
- `Run.toLedger_callBuiltin`: the entries that a call of a builtin makes.
- `Run.Lasting`: what only the start of a program may change.
-/

namespace CommandShell.Pipeline

namespace Run

variable (r : Run)

@[simp] theorem toLedger_onLedger (f : Ledger → Ledger) : (r.onLedger f).toLedger = f r.toLedger :=
  rfl

@[simp] theorem toLedger_note (e : Event) : (r.note e).toLedger = r.toLedger.note e := rfl

@[simp] theorem toLedger_onKernel (f : Kernel → Kernel) : (r.onKernel f).toLedger = r.toLedger :=
  rfl

@[simp] theorem toLedger_onOutlet (f : Outlets → Session → Outlets × Session) :
    (r.onOutlet f).toLedger = r.toLedger := rfl

@[simp] theorem toLedger_write (outlet : Outlet) (text : String) :
    (r.write outlet text).toLedger = r.toLedger := rfl

@[simp] theorem toLedger_flush (outlet : Outlet) : (r.flush outlet).toLedger = r.toLedger := rfl

@[simp] theorem toLedger_log (level : Log.Level) (message : String) (pid : Option Nat) :
    (r.log level message pid).toLedger = r.toLedger := rfl

@[simp] theorem toLedger_complete (i : Nat) (status : Int) (pid : Option Nat) :
    (r.complete i status pid).toLedger = r.toLedger.complete i status pid := rfl

@[simp] theorem toLedger_completePending (i : Nat) (status : Int) :
    (r.completePending i status).toLedger = r.toLedger.completePending i status := rfl

@[simp] theorem toLedger_notFound (i : Nat) (stage : Stage) :
    (r.notFound i stage).toLedger = r.toLedger.miss i := rfl

@[simp] theorem toLedger_cannotStart (i : Nat) (stage : Stage) (e : StartError) :
    (r.cannotStart i stage e).toLedger = r.toLedger.refuse i := rfl

@[simp] theorem toLedger_attach (streams : List (Nat × Outlet)) :
    (r.attach streams).toLedger = r.toLedger := by
  unfold attach
  induction streams generalizing r with
  | nil => rfl
  | cons stream rest ih => exact ih _

@[simp] theorem toLedger_routeTo (outlet : Outlet) :
    (r.routeTo outlet).1.toLedger = r.toLedger := by
  unfold routeTo
  dsimp only
  split <;> rfl

@[simp] theorem toLedger_descriptorsFor (i : Nat) (merges : Bool) :
    (r.descriptorsFor i merges).1.toLedger = r.toLedger := by
  unfold descriptorsFor
  have hout : (if r.isLast i then r.routeTo r.wiring.out
      else (r, r.endHandle (.write i), [])).1.toLedger = r.toLedger := by
    split <;> simp
  generalize (if r.isLast i then r.routeTo r.wiring.out else (r, r.endHandle (.write i), [])) =
    routed
    at hout ⊢
  dsimp only
  split <;> simp [hout]

@[simp] theorem toLedger_gather : r.gather.toLedger = r.toLedger := rfl

@[simp] theorem toLedger_drain (budget : Option Nat) : (r.drain budget).1.toLedger = r.toLedger :=
  rfl

theorem toLedger_awaitJob (job : Job) :
    (r.awaitJob job).toLedger =
      r.toLedger.finish job ((r.onKernel fun k => k.await job.pid).kernel.exitOf job.pid) :=
  rfl

@[simp] theorem toLedger_interruptPrograms : r.interruptPrograms.toLedger = r.toLedger := rfl

@[simp] theorem toLedger_abandon : r.abandon.toLedger = r.toLedger := rfl

theorem toLedger_closeEnd (e : CouplerEnd) :
    (r.closeEnd e).toLedger = if r.isOpen e then r.toLedger.close e else r.toLedger := by
  unfold closeEnd
  split <;> rfl

@[simp] theorem toLedger_tidy : r.tidy.toLedger = r.closeAll.toLedger := rfl

@[simp] theorem toLedger_wrapEnd (i : Nat) : (r.wrapEnd i).toLedger = r.toLedger.wrap (.write i) :=
  rfl

@[simp] theorem toLedger_closeNext (i : Nat) :
    (r.closeNext i).toLedger = r.toLedger.close (.write i) := rfl

/-- A builtin leaves the ledger of its run alone. -/
@[simp] theorem toLedger_runUntil (i : Nat) (capture : Builtin.Capture) (b : Builtin)
    (args : List String) (stop : Option Nat) :
    (b.runUntil (host i) capture args stop r).2.toLedger = r.toLedger := by
  have hk : (host i).Keeps capture fun x => x.toLedger = r.toLedger :=
    ⟨⟨fun _ _ _ hx => hx, fun _ _ _ hx => hx⟩, fun _ _ hx => hx, fun _ _ hx => hx⟩
  exact Builtin.runUntil_invariant hk b args stop rfl

/-- The entries that a call of a builtin makes. -/
theorem toLedger_callBuiltin {r r' : Run} {capture : Builtin.Capture} {i : Nat} {stage : Stage}
    {b : Builtin} {stops : Nat → Option Nat} {ending : Except Halt Int}
    (h : r.callBuiltin capture i stage b stops = (ending, r')) :
    r'.toLedger =
      if r.isLast i then (r.toLedger.note (.called i)).note (.returned i ending)
      else (((r.toLedger.wrap (.write i)).note (.called i)).note (.returned i ending)).close
        (.write i) := by
  unfold callBuiltin at h
  extract_lets r₁ r₂ at h
  have hran := r₂.toLedger_runUntil i capture b stage.args (stops i)
  generalize b.runUntil (host i) capture stage.args (stops i) r₂ = called at hran h
  obtain ⟨e, r₃⟩ := called
  dsimp only at hran h
  obtain ⟨rfl, rfl⟩ := Prod.mk.inj h
  cases hl : r.isLast i with
  | true =>
    have hr₂ : r₂.toLedger = r.toLedger.note (.called i) := by simp [r₂, r₁, hl]
    have hl₃ : (r₃.note (.returned i e)).isLast i = true := by
      rw [← hl]
      exact congrArg (fun n => decide (i + 1 = n)) (congrArg (·.stages.length) (hran.trans hr₂))
    simp [hl₃, hran, hr₂]
  | false =>
    have hr₂ : r₂.toLedger = (r.toLedger.wrap (.write i)).note (.called i) := by simp [r₂, r₁, hl]
    have hl₃ : (r₃.note (.returned i e)).isLast i = false := by
      rw [← hl]
      exact congrArg (fun n => decide (i + 1 = n)) (congrArg (·.stages.length) (hran.trans hr₂))
    simp [hl₃, hran, hr₂]

section Waiting

variable {P : Ledger → Prop} (hfinish : ∀ l job exit, job ∈ l.jobs → P l → P (l.finish job exit))
include hfinish

theorem collect_invariant {jobs : List Job} {budget : Option Nat} {r : Run}
    (hjobs : ∀ job ∈ jobs, job ∈ r.jobs) (h : P r.toLedger) :
      P (collect jobs budget r).1.toLedger := by
  induction jobs generalizing r budget with
  | nil => exact h
  | cons job rest ih =>
    have hnext : P (r.awaitJob job).toLedger := hfinish _ _ _ (hjobs job List.mem_cons_self) h
    have hrest : ∀ j ∈ rest, j ∈ (r.awaitJob job).jobs := fun j hj =>
      hjobs j (List.mem_cons_of_mem _ hj)
    rcases budget with _ | _ | n
    · exact ih hrest hnext
    · exact h
    · exact ih hrest hnext

theorem waitOnce_invariant (budget : Option Nat) {r : Run} (h : P r.toLedger) :
    P (waitOnce budget r).1.toLedger := by
  have hdrain := r.toLedger_drain budget
  unfold waitOnce
  split <;> next hd => 
    rw [hd] at hdrain
    first
    | exact collect_invariant hfinish (fun _ hj => hj) (hdrain ▸ h)
    | exact hdrain ▸ h

theorem await_invariant {interrupts : List Nat} {r : Run} (h : P r.toLedger) :
    P (await interrupts r).toLedger := by
  induction interrupts generalizing r with
  | nil => exact waitOnce_invariant hfinish none h
  | cons n rest ih =>
    cases n with
    | zero => exact ih h
    | succ n =>
      have hwait := waitOnce_invariant hfinish (some (n + 1)) h
      unfold await
      split <;> next hw =>
        rw [hw] at hwait
        first
        | exact hwait
        | exact ih hwait

/-- Whatever survives that a single program is waited for survives all waiting. -/
theorem join_invariant {r : Run} (h : P (r.toLedger.note (.waiting r.kernel.held))) :
    P r.join.toLedger := by
  unfold join
  extract_lets r₁ r₂
  exact await_invariant hfinish (r := r₁) h

end Waiting

section Lasting

/-- Something about a ledger that only the start of a program may change. -/
structure Lasting {α : Type} (f : Ledger → α) : Prop where
  note : ∀ l e, f (Ledger.note l e) = f l
  close : ∀ l e, f (Ledger.close l e) = f l
  wrap : ∀ l e, f (Ledger.wrap l e) = f l
  complete : ∀ l i status pid, f (Ledger.complete l i status pid) = f l

theorem lasting_stages : Lasting Ledger.stages :=
  ⟨fun _ _ => rfl, fun _ _ => rfl, fun _ _ => rfl, fun _ _ _ _ => rfl⟩

theorem lasting_jobs : Lasting Ledger.jobs :=
  ⟨fun _ _ => rfl, fun _ _ => rfl, fun _ _ => rfl, fun _ _ _ _ => rfl⟩

namespace Lasting

variable {α : Type} {f : Ledger → α} (hf : Lasting f) (r : Run)
include hf

theorem closeEnd (e : CouplerEnd) : f (r.closeEnd e).toLedger = f r.toLedger := by
  rw [toLedger_closeEnd]
  split
  · exact hf.close _ e
  · rfl

theorem closeEnds (ends : List CouplerEnd) : f (r.closeEnds ends).toLedger = f r.toLedger := by
  unfold Run.closeEnds
  induction ends generalizing r with
  | nil => rfl
  | cons e rest ih => exact (ih _).trans (hf.closeEnd r e)

theorem handAll (i : Nat) (ends : List CouplerEnd) :
    f (r.handAll i ends).toLedger = f r.toLedger := by
  unfold Run.handAll
  induction ends generalizing r with
  | nil => rfl
  | cons e rest ih => exact (ih _).trans (hf.note _ _)

theorem callBuiltin {r r' : Run} {capture : Builtin.Capture} {i : Nat} {stage : Stage} {b : Builtin}
    {stops : Nat → Option Nat} {ending : Except Halt Int}
    (hcall : r.callBuiltin capture i stage b stops = (ending, r')) :
    f r'.toLedger = f r.toLedger := by
  rw [toLedger_callBuiltin hcall]
  split
  · rw [hf.note, hf.note]
  · rw [hf.close, hf.note, hf.note, hf.wrap]

theorem runBuiltin (capture : Builtin.Capture) (i : Nat) (stage : Stage) (b : Builtin)
    (stops : Nat → Option Nat := fun _ => none) :
    f (r.runBuiltin capture i stage b stops).2.toLedger = f r.toLedger := by
  unfold Run.runBuiltin
  split <;> next hcall =>
    first
    | exact (hf.complete _ _ _ _).trans (hf.callBuiltin hcall)
    | exact hf.callBuiltin hcall

theorem runBuiltins (capture : Builtin.Capture) (indexed : List (Stage × Nat))
    (stops : Nat → Option Nat := fun _ => none) :
    f (Run.runBuiltins capture indexed r stops).2.toLedger = f r.toLedger := by
  induction indexed generalizing r with
  | nil => rfl
  | cons stage rest ih =>
    unfold Run.runBuiltins
    split
    · exact ih r
    · next b _ =>
      have hfirst := hf.runBuiltin r capture stage.2 stage.1 b stops
      split
      · next hs =>
        rw [hs] at hfirst
        exact (ih _).trans hfirst
      · exact hfirst

theorem interruptBuiltins (indexed : List (Stage × Nat)) :
    f (r.interruptBuiltins indexed).toLedger = f r.toLedger := by
  induction indexed generalizing r with
  | nil => rfl
  | cons stage rest ih =>
    refine (ih _).trans ?_
    split
    · rw [toLedger_completePending, Ledger.completePending]
      split
      · exact hf.complete _ _ _ _
      · rfl
    · rfl

theorem join : f r.join.toLedger = f r.toLedger :=
  join_invariant (P := fun l => f l = f r.toLedger)
    (fun l _ _ _ hl => ((hf.complete _ _ _ _).trans (hf.note l _)).trans hl) (hf.note _ _)

end Lasting

end Lasting

end Run

end CommandShell.Pipeline
