import CommandShell.Proofs.Ledger.Frame
import CommandShell.Proofs.Ledger.Replay

/-!
# The life of a coupler end

An end is opened, may be handed to stages and taken over by a sink while the shell has it, and is
closed. `EndState.next` refuses everything else, so a history through which an end gets is one in
which it is treated well. `Ledger.Holding` is the invariant of a run: the open ends are held, all
others have been closed.

## Main statements

- `countP_closes_of_life`: a closed end has been closed once, any other one not at all.
- `held_of_life_use`: an end is handed on and wrapped before it is closed.
- `Run.holding_spawnAll`, `Run.holding_runBuiltins`: which ends are open after the starts and after
  the builtins.
-/

namespace CommandShell.Pipeline

/-- How far the life of a coupler end has got. -/
inductive EndState where
  | unopened
  | held
  | wrapped
  | closed
  deriving DecidableEq, Repr

/-- What an event makes of an end, unless it must not happen: an end is handed on and wrapped while
it is held, it is closed once, and all ends are closed when the shell waits. -/
def EndState.next (e : CouplerEnd) (s : EndState) : Event → Option EndState
  | .opened e' => if e' ≠ e then some s else if s = .unopened then some .held else none
  | .handed e' _ => if e' ≠ e then some s else if s = .held then some .held else none
  | .wrapped e' => if e' ≠ e then some s else if s = .held then some .wrapped else none
  | .closed e' => if e' ≠ e then some s else if s = .held ∨ s = .wrapped then some .closed else none
  | .waiting _ => if s = .held ∨ s = .wrapped then none else some s
  | _ => some s

/-- How far an end has got at the end of a history. -/
def life (e : CouplerEnd) (history : List Event) : Option EndState :=
  through (EndState.next e) .unopened history

theorem life_append (e : CouplerEnd) (past rest : List Event) :
    life e (past ++ rest) = (life e past).bind fun s => through (EndState.next e) s rest :=
  through_append _ past rest

theorem life_concat (e : CouplerEnd) (past : List Event) (event : Event) :
    life e (past ++ [event]) = (life e past).bind fun s => s.next e event :=
  through_concat _ past event

/-- Whether an event closes an end. -/
def Event.closes (e : CouplerEnd) : Event → Bool
  | .closed e' => e' = e
  | _ => false

/-- Whether an event opens an end. -/
def Event.opens (e : CouplerEnd) : Event → Bool
  | .opened e' => e' = e
  | _ => false

theorem Event.closes_iff {e : CouplerEnd} {event : Event} : event.closes e ↔ event = .closed e := by
  cases event <;> simp [Event.closes]

theorem Event.opens_iff {e : CouplerEnd} {event : Event} : event.opens e ↔ event = .opened e := by
  cases event <;> simp [Event.opens]

/-- An end that has got to its close has been closed once, any other one not at all. -/
theorem countP_closes_of_life {e : CouplerEnd} {history : List Event} {s : EndState}
    (h : life e history = some s) :
      history.countP (Event.closes e) = if s = .closed then 1 else 0 := by
  refine through_invariant (P := fun past s =>
    past.countP (Event.closes e) = if s = .closed then 1 else 0)
    rfl (fun past u v event hpast hn => ?_) h
  rw [List.countP_append, hpast, List.countP_singleton]
  cases event <;> simp only [EndState.next, Event.closes] at hn ⊢ <;> grind

theorem countP_opens_of_life {e : CouplerEnd} {history : List Event} {s : EndState}
    (h : life e history = some s) :
      history.countP (Event.opens e) = if s = .unopened then 0 else 1 := by
  refine through_invariant (P := fun past s =>
    past.countP (Event.opens e) = if s = .unopened then 0 else 1)
    rfl (fun past u v event hpast hn => ?_) h
  rw [List.countP_append, hpast, List.countP_singleton]
  cases event <;> simp only [EndState.next, Event.opens] at hn ⊢ <;> grind

theorem closed_mem_iff_of_life {e : CouplerEnd} {history : List Event} {s : EndState}
    (h : life e history = some s) : .closed e ∈ history ↔ s = .closed := by
  have hcount := countP_closes_of_life h
  constructor
  · intro hmem
    have hpos : 0 < history.countP (Event.closes e) :=
      List.countP_pos_iff.mpr ⟨_, hmem, Event.closes_iff.mpr rfl⟩
    rw [hcount] at hpos
    by_cases hs : s = .closed
    · exact hs
    · simp [hs] at hpos
  · rintro rfl
    have hpos : 0 < history.countP (Event.closes e) := by simp [hcount]
    obtain ⟨event, hmem, hcloses⟩ := List.countP_pos_iff.mp hpos
    exact Event.closes_iff.mp hcloses ▸ hmem

theorem opened_mem_iff_of_life {e : CouplerEnd} {history : List Event} {s : EndState}
    (h : life e history = some s) : .opened e ∈ history ↔ s ≠ .unopened := by
  have hcount := countP_opens_of_life h
  constructor
  · rintro hmem rfl
    have hpos : 0 < history.countP (Event.opens e) :=
      List.countP_pos_iff.mpr ⟨_, hmem, Event.opens_iff.mpr rfl⟩
    simp [hcount] at hpos
  · intro hs
    have hpos : 0 < history.countP (Event.opens e) := by simp [hcount, hs]
    obtain ⟨event, hmem, hopens⟩ := List.countP_pos_iff.mp hpos
    exact Event.opens_iff.mp hopens ▸ hmem

/-- An end that is handed on or wrapped has been opened and not been closed. -/
theorem held_of_life_use {e : CouplerEnd} {past rest : List Event} {event : Event} {s : EndState}
    (h : life e (past ++ event :: rest) = some s)
    (hevent : (∃ i, event = .handed e i) ∨ event = .wrapped e) :
      .opened e ∈ past ∧ .closed e ∉ past := by
  obtain ⟨t, u, ht, hn⟩ := next_of_through h
  rw [opened_mem_iff_of_life ht, closed_mem_iff_of_life ht]
  obtain ⟨i, rfl⟩ | rfl := hevent <;> cases t <;> simp [EndState.next] at hn ⊢

/-- When the shell waits, an end that was opened has been closed. -/
theorem closed_of_life_waiting {e : CouplerEnd} {past rest : List Event} {held : List Handle}
    {s : EndState} (h : life e (past ++ .waiting held :: rest) = some s) (ho : .opened e ∈ past) :
    .closed e ∈ past := by
  obtain ⟨t, u, ht, hn⟩ := next_of_through h
  rw [closed_mem_iff_of_life ht]
  rw [opened_mem_iff_of_life ht] at ho
  cases t <;> simp [EndState.next] at hn ho ⊢

/-- An event that is about no coupler end. -/
def Event.isAside : Event → Bool
  | .opened _ | .handed _ _ | .wrapped _ | .closed _ | .waiting _ => false
  | _ => true

theorem EndState.next_aside {event : Event} (h : event.isAside) (e : CouplerEnd) (s : EndState) :
    s.next e event = some s := by
  cases event <;> first | rfl | cases h

namespace Ledger

theorem mem_couplerEnds_read {count j : Nat} : CouplerEnd.read j ∈ couplerEnds count ↔
    j < count := by
  simp [couplerEnds]

theorem mem_couplerEnds_write {count j : Nat} :
    CouplerEnd.write j ∈ couplerEnds count ↔ j < count := by
  simp [couplerEnds]

theorem nodup_couplerEnds (count : Nat) : (couplerEnds count).Nodup := by
  induction count with
  | zero => simp [couplerEnds]
  | succ n ih =>
    have hsucc : couplerEnds (n + 1) = couplerEnds n ++ [.read n, .write n] := by
      simp [couplerEnds, List.range_succ]
    rw [hsucc, List.nodup_append]
    refine ⟨ih, by simp, fun e he e' he' => ?_⟩
    rintro rfl
    rcases e with j | j
    · have := mem_couplerEnds_read.mp he
      simp at he'
      omega
    · have := mem_couplerEnds_write.mp he
      simp at he'
      omega

/-- How far an end has got that the shell holds or does not hold any more. -/
def stateOf (l : Ledger) (e : CouplerEnd) : EndState :=
  if e ∈ l.openEnds then .held
  else if e ∈ couplerEnds (l.stages.length - 1) then .closed
  else .unopened

/-- The open ends are those of a kind; they are held, and all other ends have been closed. Whenever
the shell has started to wait, what it held was as it should be. -/
structure Holding (l : Ledger) (W : List Handle → Prop) (P : CouplerEnd → Prop) : Prop where
  nodup : l.openEnds.Nodup
  mem_openEnds : ∀ e, e ∈ l.openEnds ↔ P e
  known : ∀ e ∈ l.openEnds, e ∈ couplerEnds (l.stages.length - 1)
  life_eq : ∀ e, life e l.history = some (l.stateOf e)
  waits : ∀ held, .waiting held ∈ l.history → W held

namespace Holding

variable {l l' : Ledger} {W : List Handle → Prop} {P Q : CouplerEnd → Prop}

theorem congr (h : l.Holding W P) (hpq : ∀ e, P e ↔ Q e) : l.Holding W Q :=
  ⟨h.nodup, fun e => (h.mem_openEnds e).trans (hpq e), h.known, h.life_eq, h.waits⟩

/-- What is written down about something else does not matter. -/
theorem aside (h : l.Holding W P) (events : List Event) (hevents : ∀ event ∈ events, event.isAside)
    (hstages : l'.stages = l.stages) (hopen : l'.openEnds = l.openEnds)
    (hhistory : l'.history = l.history ++ events) : l'.Holding W P := by
  have hstate (e : CouplerEnd) : l'.stateOf e = l.stateOf e := by simp [stateOf, hstages, hopen]
  refine ⟨hopen ▸ h.nodup, fun e => hopen ▸ h.mem_openEnds e, ?_, fun e => ?_, fun held hw => ?_⟩
  · rw [hopen, hstages]
    exact h.known
  · rw [hhistory, life_append, h.life_eq e, hstate, Option.bind_some]
    clear hhistory
    generalize l.stateOf e = s
    induction events with
    | nil => rfl
    | cons event rest ih =>
      rw [through_cons, EndState.next_aside (hevents _ List.mem_cons_self)]
      exact ih fun x hx => hevents x (List.mem_cons_of_mem _ hx)
  · rw [hhistory] at hw
    rcases List.mem_append.mp hw with hold | hnew
    · exact h.waits held hold
    · exact nomatch hevents _ hnew

theorem note (h : l.Holding W P) {event : Event} (hevent : event.isAside) :
    (l.note event).Holding W P :=
  h.aside [event] (by simpa using hevent) rfl rfl rfl

theorem complete (h : l.Holding W P) (i : Nat) (status : Int) (pid : Option Nat) :
    (l.complete i status pid).Holding W P :=
  h.aside [.recorded ..] (by simp [Event.isAside]) rfl rfl rfl

theorem completePending (h : l.Holding W P) (i : Nat) (status : Int) :
    (l.completePending i status).Holding W P := by
  unfold Ledger.completePending
  split
  · exact h.complete i status none
  · exact h

theorem start (h : l.Holding W P) (i pid : Nat) : (l.start i pid).Holding W P :=
  h.aside [.started i pid] (by simp [Event.isAside]) rfl rfl rfl

theorem miss (h : l.Holding W P) (i : Nat) : (l.miss i).Holding W P :=
  (h.note rfl).complete i _ none

theorem refuse (h : l.Holding W P) (i : Nat) : (l.refuse i).Holding W P :=
  (h.note rfl).complete i _ none

theorem finish (h : l.Holding W P) (job : Job) (exit : Option Exit) :
    (l.finish job exit).Holding W P :=
  (h.note rfl).complete job.index _ (some job.pid)

/-- An end that is held may be handed on. -/
theorem hand (h : l.Holding W P) {e : CouplerEnd} (he : P e) (i : Nat) :
    (l.note (.handed e i)).Holding W P := by
  refine ⟨h.nodup, h.mem_openEnds, h.known, fun e' => ?_, fun held hw => ?_⟩
  · change life e' (l.history ++ [.handed e i]) = some (l.stateOf e')
    rw [life_concat, h.life_eq e', Option.bind_some]
    by_cases hee : e = e'
    · subst hee
      simp [EndState.next, stateOf, (h.mem_openEnds e).mpr he]
    · simp [EndState.next, hee]
  · rcases List.mem_append.mp hw with hold | hnew
    · exact h.waits held hold
    · cases List.mem_singleton.mp hnew

/-- The shell may wait when it holds no end. -/
theorem wait (h : l.Holding W P) (hp : ∀ e, ¬ P e) {held : List Handle} (hw : W held) :
    (l.note (.waiting held)).Holding W P := by
  refine ⟨h.nodup, h.mem_openEnds, h.known, fun e => ?_, fun held' hw' => ?_⟩
  · change life e (l.history ++ [.waiting held]) = some (l.stateOf e)
    have hclosed : e ∉ l.openEnds := fun he => hp e ((h.mem_openEnds e).mp he)
    rw [life_concat, h.life_eq e, Option.bind_some, stateOf, if_neg hclosed]
    split <;> simp [EndState.next]
  · rcases List.mem_append.mp hw' with hold | hnew
    · exact h.waits held' hold
    · cases List.mem_singleton.mp hnew
      exact hw

/-- The invariant after an end has gone through some events at the end of which it is closed. -/
theorem closed (h : l.Holding W P) {e : CouplerEnd} (he : P e) (events : List Event)
    (hthrough : through (EndState.next e) .held events = some .closed)
    (hother : ∀ e' s, e' ≠ e → through (EndState.next e') s events = some s)
    (hwaits : ∀ held, .waiting held ∉ events) (hstages : l'.stages = l.stages)
    (hopen : l'.openEnds = l.openEnds.filter (· ≠ e))
    (hhistory : l'.history = l.history ++ events) : l'.Holding W fun e' => P e' ∧ e' ≠ e := by
  have hmem : e ∈ l.openEnds := (h.mem_openEnds e).mpr he
  refine ⟨hopen ▸ h.nodup.filter _, fun e' => ?_, fun e' he' => ?_, fun e' => ?_, fun held hw => ?_⟩
  · simp [hopen, h.mem_openEnds]
  · rw [hopen] at he'
    exact hstages ▸ h.known e' (List.mem_filter.mp he').1
  · rw [hhistory, life_append, h.life_eq e', Option.bind_some]
    by_cases hee : e' = e
    · subst hee
      simp [stateOf, hmem, hthrough, hopen, hstages, h.known e' hmem]
    · simp [stateOf, hother e' _ hee, hee, hopen, hstages]
  · rw [hhistory] at hw
    rcases List.mem_append.mp hw with hold | hnew
    · exact h.waits held hold
    · exact absurd hnew (hwaits held)

theorem close (h : l.Holding W P) {e : CouplerEnd} (he : P e) :
    (l.close e).Holding W fun e' => P e' ∧ e' ≠ e := by
  refine h.closed he [.closed e] ?_ (fun e' s hee => ?_) (by simp) rfl rfl rfl
  · simp [through, EndState.next]
  · simp [through, EndState.next, Ne.symm hee]

end Holding

theorem through_opened_of_not_mem {e : CouplerEnd} {ends : List CouplerEnd} (he : e ∉ ends)
    (s : EndState) : through (EndState.next e) s (ends.map .opened) = some s := by
  induction ends with
  | nil => rfl
  | cons e' rest ih =>
    rw [List.mem_cons, not_or] at he
    rw [List.map_cons, through_cons, EndState.next, if_pos (Ne.symm he.1)]
    exact ih he.2

theorem life_opened_of_mem {e : CouplerEnd} {ends : List CouplerEnd} (hn : ends.Nodup)
    (he : e ∈ ends) : life e (ends.map .opened) = some .held := by
  unfold life
  induction ends with
  | nil => cases he
  | cons e' rest ih =>
    rw [List.nodup_cons] at hn
    rw [List.map_cons, through_cons]
    by_cases hee : e' = e
    · subst hee
      simpa [EndState.next] using through_opened_of_not_mem hn.1 .held
    · have hmem : e ∈ rest := (List.mem_cons.mp he).resolve_left (Ne.symm hee)
      simpa [EndState.next, hee] using ih hn.2 hmem

/-- At its start a pipeline holds both ends of every coupler. -/
theorem holding_ofStages (W : List Handle → Prop) (stages : List Stage) :
    (ofStages stages).Holding W fun e => e ∈ couplerEnds (stages.length - 1) := by
  refine ⟨nodup_couplerEnds _, fun e => Iff.rfl, fun e he => he, fun e => ?_, fun held hw => ?_⟩
  · have hends : (ofStages stages).openEnds = couplerEnds (stages.length - 1) := rfl
    have hhistory : (ofStages stages).history = (couplerEnds (stages.length - 1)).map .opened := rfl
    have hlength : (ofStages stages).stages.length = stages.length := rfl
    rw [stateOf, hends, hhistory, hlength]
    split
    · next he => exact life_opened_of_mem (nodup_couplerEnds _) he
    · next he => exact through_opened_of_not_mem he .unopened
  · obtain ⟨e, -, he⟩ := List.mem_map.mp hw
    cases he

end Ledger

namespace Run

variable {r : Run} {W : List Handle → Prop} {P : CouplerEnd → Prop}

theorem holding_closeEnd (h : r.Holding W P) (e : CouplerEnd) :
    (r.closeEnd e).Holding W fun e' => P e' ∧ e' ≠ e := by
  rw [toLedger_closeEnd]
  split
  · next ho =>
    exact h.close ((h.mem_openEnds e).mp (by simpa [Ledger.isOpen] using ho))
  · next ho =>
    refine h.congr fun e' => ⟨fun he' => ⟨he', ?_⟩, And.left⟩
    rintro rfl
    exact ho (by simpa [Ledger.isOpen] using (h.mem_openEnds e').mpr he')

theorem holding_closeEnds (h : r.Holding W P) (ends : List CouplerEnd) :
    (r.closeEnds ends).Holding W fun e => P e ∧ e ∉ ends := by
  unfold closeEnds
  induction ends generalizing r P with
  | nil => simpa using h
  | cons e rest ih =>
    refine (ih (holding_closeEnd h e)).congr fun e' => ?_
    simp only [List.mem_cons, not_or, and_assoc]

/-- Closing all ends leaves none open. -/
theorem holding_closeAll (h : r.Holding W P) : r.closeAll.Holding W fun _ => False :=
  (holding_closeEnds h r.openEnds).congr fun e => by simp [h.mem_openEnds e]

section Phases

variable (stages : List Stage)

/-- Whether a stage is a builtin. -/
def isBuiltinAt (i : Nat) : Prop := ∃ stage, stages[i]? = some stage ∧ stage.isBuiltin

/-- The ends that are open before a stage is started: those that lead to a later stage, and what the
builtins write to. -/
def startEnds (i : Nat) : CouplerEnd → Prop
  | .read j => j + 1 < stages.length ∧ i ≤ j + 1
  | .write j => j + 1 < stages.length ∧ (i ≤ j ∨ isBuiltinAt stages j)

/-- The ends that are open before the builtins from some stage on are called: what these write
to. -/
def callEnds (i : Nat) : CouplerEnd → Prop
  | .read _ => False
  | .write j => j + 1 < stages.length ∧ i ≤ j ∧ isBuiltinAt stages j

variable {stages}

theorem startEnds_zero (e : CouplerEnd) :
    e ∈ Ledger.couplerEnds (stages.length - 1) ↔ startEnds stages 0 e := by
  cases e with
  | read j => simp [Ledger.mem_couplerEnds_read, startEnds]; omega
  | write j => simp [Ledger.mem_couplerEnds_write, startEnds]; omega

theorem startEnds_length (e : CouplerEnd) : startEnds stages stages.length e ↔
    callEnds stages 0 e := by
  cases e with
  | read j =>
    simp only [startEnds, callEnds, iff_false]
    omega
  | write j =>
    simp only [startEnds, callEnds]
    constructor
    · rintro ⟨hj, hle | hb⟩
      · omega
      · exact ⟨hj, by omega, hb⟩
    · rintro ⟨hj, -, hb⟩
      exact ⟨hj, .inr hb⟩

end Phases

theorem mem_inputEnds {i : Nat} {e : CouplerEnd} : e ∈ inputEnds i ↔ ∃ j, i = j + 1 ∧
    e = .read j := by
  cases i <;> simp [inputEnds]

theorem mem_outputEnds {r : Run} {i : Nat} {e : CouplerEnd} :
    e ∈ r.outputEnds i ↔ i + 1 < r.stages.length ∧ e = .write i := by
  unfold outputEnds
  split
  · next h => simp [h]
  · next h => simp [h]

/-- Once a builtin has its start behind it, only the end that it reads from is closed. -/
theorem startEnds_succ_builtin {stages : List Stage} {i : Nat} (hb : isBuiltinAt stages i)
    (e : CouplerEnd) : startEnds stages i e ∧ e ∉ inputEnds i ↔ startEnds stages (i + 1) e := by
  cases e with
  | read j => simp only [startEnds, mem_inputEnds, CouplerEnd.read.injEq]; grind
  | write j => simp only [startEnds, mem_inputEnds]; grind

/-- Once a program has been started, or could not be, both of its ends are closed. -/
theorem startEnds_succ_program {r : Run} {i : Nat} (hb : ¬ isBuiltinAt r.stages i)
    (e : CouplerEnd) :
    startEnds r.stages i e ∧ e ∉ inputEnds i ++ r.outputEnds i ↔ startEnds r.stages (i + 1) e := by
  cases e with
  | read j => simp only [startEnds, List.mem_append, mem_inputEnds, mem_outputEnds]; grind
  | write j => simp only [startEnds, List.mem_append, mem_inputEnds, mem_outputEnds]; grind

@[simp] theorem stages_closeEnds (r : Run) (ends : List CouplerEnd) :
    (r.closeEnds ends).stages = r.stages := lasting_stages.closeEnds r ends

@[simp] theorem stages_handAll (r : Run) (i : Nat) (ends : List CouplerEnd) :
    (r.handAll i ends).stages = r.stages := lasting_stages.handAll r i ends

theorem holding_handAll (h : r.Holding W P) (i : Nat) {ends : List CouplerEnd}
    (he : ∀ e ∈ ends, P e) : (r.handAll i ends).Holding W P := by
  unfold handAll
  induction ends generalizing r with
  | nil => exact h
  | cons e rest ih =>
    exact ih (r := r.note (.handed e i)) (h.hand (he e List.mem_cons_self) i)
      fun e' he' => he e' (List.mem_cons_of_mem _ he')

/-- Starting a program closes the ends that were handed to it, whatever comes of it. -/
theorem holding_spawnProgram {i : Nat} (h : r.Holding W P)
    (he : ∀ e ∈ inputEnds i ++ r.outputEnds i, P e) (stage : Stage) (path : Path) :
    (r.spawnProgram i stage path).2.Holding W fun e => P e ∧ e ∉ inputEnds i ++ r.outputEnds i := by
  unfold spawnProgram
  extract_lets ends
  have hrouted := r.toLedger_descriptorsFor i stage.redirections.merges
  generalize r.descriptorsFor i stage.redirections.merges = routed at hrouted
  obtain ⟨r₁, descriptors, streams⟩ := routed
  have h₁ : (r₁.handAll i ends).Holding W P := holding_handAll (hrouted ▸ h) i he
  dsimp only
  split
  · exact holding_closeEnds h₁ ends
  · split
    · exact holding_closeEnds (h₁.refuse i) ends
    · simp only [toLedger_attach, toLedger_log]
      exact holding_closeEnds (h₁.start i _) ends

@[simp] theorem stages_spawnProgram (r : Run) (i : Nat) (stage : Stage) (path : Path) :
    (r.spawnProgram i stage path).2.stages = r.stages := by
  unfold spawnProgram
  extract_lets ends
  have hrouted := congrArg Ledger.stages (r.toLedger_descriptorsFor i stage.redirections.merges)
  generalize r.descriptorsFor i stage.redirections.merges = routed at hrouted
  obtain ⟨r₁, descriptors, streams⟩ := routed
  dsimp only at hrouted ⊢
  split
  · simp [hrouted]
  · split <;> simp [hrouted, Ledger.refuse, Ledger.complete, Ledger.note, Ledger.start]

@[simp] theorem stages_spawn (r : Run) (i : Nat) (stage : Stage) :
    (r.spawn i stage).2.stages = r.stages := by
  unfold spawn
  split
  · simp
  · simp [Ledger.miss, Ledger.complete, Ledger.note]
  · simp

theorem holding_spawn {i : Nat} {stage : Stage} (hstage : r.stages[i]? = some stage)
    (h : r.Holding W (startEnds r.stages i)) :
    (r.spawn i stage).2.Holding W (startEnds r.stages (i + 1)) := by
  have hi : i < r.stages.length := (List.getElem?_eq_some_iff.mp hstage).1
  have hends : ∀ e ∈ inputEnds i ++ r.outputEnds i, startEnds r.stages i e := by
    intro e he
    rcases List.mem_append.mp he with he | he
    · obtain ⟨j, rfl, rfl⟩ := mem_inputEnds.mp he
      exact ⟨hi, by omega⟩
    · obtain ⟨hlt, rfl⟩ := mem_outputEnds.mp he
      exact ⟨hlt, .inl (by omega)⟩
  have hbuiltin : isBuiltinAt r.stages i ↔ stage.isBuiltin := by simp [isBuiltinAt, hstage]
  unfold spawn
  split
  · next ht =>
    have hb : isBuiltinAt r.stages i := hbuiltin.mpr (by simp [Stage.isBuiltin, ht])
    exact (holding_closeEnds h _).congr (startEnds_succ_builtin hb)
  · next ht =>
    have hb : ¬ isBuiltinAt r.stages i := by simp [hbuiltin, Stage.isBuiltin, ht]
    exact (holding_closeEnds (r := r.notFound i stage) (h.miss i) _).congr
      (startEnds_succ_program hb)
  · next ht =>
    have hb : ¬ isBuiltinAt r.stages i := by simp [hbuiltin, Stage.isBuiltin, ht]
    exact (holding_spawnProgram h hends stage _).congr (startEnds_succ_program hb)

/-- While programs are started, the ends that are still needed are open. -/
theorem holding_spawnAll {done todo : List Stage} (hstages : r.stages = done ++ todo)
    (h : r.Holding W (startEnds r.stages done.length)) :
    ∃ P, (spawnAll (todo.zipIdx done.length) r).2.Holding W P ∧
      ((spawnAll (todo.zipIdx done.length) r).1 = none →
        P = startEnds r.stages r.stages.length) := by
  induction todo generalizing r done with
  | nil => exact ⟨_, h, fun _ => by simp [hstages]⟩
  | cons stage rest ih =>
    rw [List.zipIdx_cons]
    have hstage : r.stages[done.length]? = some stage := by simp [hstages]
    have hnext := holding_spawn hstage h
    have hkeep := r.stages_spawn done.length stage
    rcases hspawn : r.spawn done.length stage with ⟨_ | halt, r'⟩ <;>
      simp only [hspawn] at hnext hkeep <;> simp only [spawnAll, hspawn]
    · have hdone : (done ++ [stage]).length = done.length + 1 := by simp
      rw [← hkeep, ← hdone] at hnext ⊢
      exact ih (by simp [hkeep, hstages]) hnext
    · exact ⟨_, hnext, fun hn => nomatch hn⟩

theorem callEnds_succ_program {stages : List Stage} {i : Nat} (hb : ¬ isBuiltinAt stages i)
    (e : CouplerEnd) : callEnds stages i e ↔ callEnds stages (i + 1) e := by
  cases e with
  | read j => rfl
  | write j => simp only [callEnds]; grind

theorem callEnds_succ_builtin {stages : List Stage} {i : Nat} (e : CouplerEnd) :
    callEnds stages i e ∧ e ≠ .write i ↔ callEnds stages (i + 1) e := by
  cases e with
  | read j => simp [callEnds]
  | write j => simp only [callEnds, ne_eq, CouplerEnd.write.injEq]; grind

theorem callEnds_succ_last {i : Nat} (hl : r.isLast i) (e : CouplerEnd) :
    callEnds r.stages i e ↔ callEnds r.stages (i + 1) e := by
  have hlast : i + 1 = r.stages.length := by simpa [isLast] using hl
  cases e with
  | read j => rfl
  | write j => simp only [callEnds]; grind

/-- A builtin before the last stage has its sink take over the end that it writes to, and closes
it. -/
theorem holding_callBuiltin {r' : Run} {capture : Builtin.Capture} {i : Nat} {stage : Stage}
    {b : Builtin} {stops : Nat → Option Nat} {ending : Except Halt Int}
    (hcall : r.callBuiltin capture i stage b stops = (ending, r'))
    (hb : isBuiltinAt r.stages i) (h : r.Holding W (callEnds r.stages i)) :
    r'.Holding W (callEnds r.stages (i + 1)) := by
  have hl := toLedger_callBuiltin hcall
  have hi : i < r.stages.length := by
    obtain ⟨stage, hs, -⟩ := hb
    exact (List.getElem?_eq_some_iff.mp hs).1
  split at hl
  · next hlast =>
    exact hl ▸ ((h.note rfl).note rfl).congr (callEnds_succ_last hlast)
  · next hlast =>
    have hlt : i + 1 < r.stages.length := by
      have : i + 1 ≠ r.stages.length := by simpa [isLast] using hlast
      omega
    have hclosed : r'.Holding W _ := h.closed (e := .write i) ⟨hlt, Nat.le_refl i, hb⟩
      [.wrapped (.write i), .called i, .returned i ending, .closed (.write i)]
      (by simp [through, EndState.next])
        (fun e s hee => by simp [through, EndState.next, Ne.symm hee])
      (by simp) (by rw [hl]; rfl) (by simp [hl, Ledger.close, Ledger.note, Ledger.wrap])
      (by simp [hl, Ledger.close, Ledger.note, Ledger.wrap])
    exact hclosed.congr callEnds_succ_builtin

theorem stages_callBuiltin {r r' : Run} {capture : Builtin.Capture} {i : Nat} {stage : Stage}
    {b : Builtin} {stops : Nat → Option Nat} {ending : Except Halt Int}
    (hcall : r.callBuiltin capture i stage b stops = (ending, r')) :
    r'.stages = r.stages := lasting_stages.callBuiltin hcall

theorem stages_runBuiltin (r : Run) (capture : Builtin.Capture) (i : Nat) (stage : Stage)
    (b : Builtin) (stops : Nat → Option Nat := fun _ => none) :
    (r.runBuiltin capture i stage b stops).2.stages = r.stages :=
  lasting_stages.runBuiltin r capture i stage b stops

@[simp] theorem stages_spawnAll (indexed : List (Stage × Nat)) (r : Run) :
    (spawnAll indexed r).2.stages = r.stages := by
  induction indexed generalizing r with
  | nil => rfl
  | cons stage rest ih =>
    have hfirst := r.stages_spawn stage.2 stage.1
    unfold spawnAll
    split
    · next hs =>
      rw [hs] at hfirst
      exact (ih _).trans hfirst
    · exact hfirst

@[simp] theorem stages_runBuiltins (capture : Builtin.Capture)
    (indexed : List (Stage × Nat)) (r : Run) (stops : Nat → Option Nat := fun _ => none) :
    (runBuiltins capture indexed r stops).2.stages = r.stages :=
  lasting_stages.runBuiltins r capture indexed stops

@[simp] theorem stages_join (r : Run) : r.join.stages = r.stages := lasting_stages.join r

@[simp] theorem stages_interruptBuiltins (r : Run) (indexed : List (Stage × Nat)) :
    (r.interruptBuiltins indexed).stages = r.stages := lasting_stages.interruptBuiltins r indexed

/-- Marking builtins as interrupted is about no end. -/
theorem holding_interruptBuiltins (h : r.Holding W P) (indexed : List (Stage × Nat)) :
    (r.interruptBuiltins indexed).Holding W P := by
  induction indexed generalizing r with
  | nil => exact h
  | cons stage rest ih =>
    refine ih ?_
    split
    · exact h.completePending _ _
    · exact h

theorem holding_runBuiltin {i : Nat} (stage : Stage) (b : Builtin) (capture : Builtin.Capture)
    (stops : Nat → Option Nat) (hb : isBuiltinAt r.stages i)
    (h : r.Holding W (callEnds r.stages i)) :
    (r.runBuiltin capture i stage b stops).2.Holding W (callEnds r.stages (i + 1)) := by
  unfold runBuiltin
  split <;> next hcall =>
    have hcalled := holding_callBuiltin hcall hb h
    first
    | exact hcalled
    | exact hcalled.complete _ _ _

/-- While builtins run, the ends that are open are those that the later ones write to. -/
theorem holding_runBuiltins (capture : Builtin.Capture) (stops : Nat → Option Nat)
    {done todo : List Stage} (hstages : r.stages = done ++ todo)
    (h : r.Holding W (callEnds r.stages done.length)) :
    ∃ P, (runBuiltins capture (todo.zipIdx done.length) r stops).2.Holding W P ∧
      ((runBuiltins capture (todo.zipIdx done.length) r stops).1 = none →
        P = callEnds r.stages r.stages.length) := by
  induction todo generalizing r done with
  | nil => exact ⟨_, h, fun _ => by simp [hstages]⟩
  | cons stage rest ih =>
    rw [List.zipIdx_cons]
    have hstage : r.stages[done.length]? = some stage := by simp [hstages]
    have hdone : (done ++ [stage]).length = done.length + 1 := by simp
    have hbuiltin : isBuiltinAt r.stages done.length ↔ stage.isBuiltin := by
      simp [isBuiltinAt, hstage]
    cases htarget : stage.target with
    | program path =>
      have hb : ¬ isBuiltinAt r.stages done.length := by simp [hbuiltin, Stage.isBuiltin, htarget]
      simp only [runBuiltins, htarget]
      rw [← hdone]
      exact ih (by simp [hstages]) (hdone ▸ h.congr (callEnds_succ_program hb))
    | builtin b =>
      have hb : isBuiltinAt r.stages done.length :=
        hbuiltin.mpr (by simp [Stage.isBuiltin, htarget])
      have hnext := holding_runBuiltin stage b capture stops hb h
      have hkeep := r.stages_runBuiltin capture done.length stage b stops
      rcases hrun : r.runBuiltin capture done.length stage b stops with ⟨_ | halt, r'⟩ <;>
        simp only [hrun] at hnext hkeep <;> simp only [runBuiltins, htarget, hrun]
      · rw [← hkeep, ← hdone] at hnext ⊢
        exact ih (by simp [hkeep, hstages]) hnext
      · exact ⟨_, hnext, fun hn => nomatch hn⟩

/-- Once all programs have been started, the ends that are open are those that builtins write to. -/
theorem holding_starts {stages : List Stage} (hstages : r.stages = stages)
    (h : r.Holding W (startEnds stages 0)) {halted : Option Halt} {r' : Run}
    (hr : spawnAll stages.zipIdx r = (halted, r')) :
    ∃ P, r'.Holding W P ∧ (halted = none → P = callEnds stages 0) := by
  subst hstages
  obtain ⟨P, hspawn, hP⟩ := holding_spawnAll (List.nil_append r.stages).symm h
  rw [show r.stages.zipIdx [].length = r.stages.zipIdx from rfl, hr] at hspawn hP
  cases halted with
  | none =>
    rw [hP rfl] at hspawn
    exact ⟨_, hspawn.congr fun e => startEnds_length e, fun _ => rfl⟩
  | some halt => exact ⟨P, hspawn, fun hn => nomatch hn⟩

/-- Once all builtins have run, no end is open. -/
theorem holding_calls {capture : Builtin.Capture} {stops : Nat → Option Nat} {stages : List Stage}
    (hstages : r.stages = stages)
    (h : r.Holding W (callEnds stages 0)) {halted : Option Halt} {r' : Run}
    (hr : runBuiltins capture stages.zipIdx r stops = (halted, r')) :
    ∃ P, r'.Holding W P ∧ (halted = none → ∀ e, ¬ P e) := by
  subst hstages
  obtain ⟨P, hran, hP⟩ := holding_runBuiltins capture stops (List.nil_append r.stages).symm h
  rw [show r.stages.zipIdx [].length = r.stages.zipIdx from rfl, hr] at hran hP
  refine ⟨P, hran, fun hn e he => ?_⟩
  rw [hP hn] at he
  cases e with
  | read j => exact he
  | write j =>
    obtain ⟨hlt, hle, -⟩ := he
    omega

end Run

end CommandShell.Pipeline
