import CommandShell.Pipeline.Ledger
import Mathlib.Data.List.Induction

/-!
# Histories that something gets through

A coupler end or a stage may be treated well or badly. A partial function says what an event makes
of it, and nothing where the event must not happen. What gets through a history has been treated
well.

The results of the stages and the number of those that are left are written down together, so both
can be read off the history. At every point of it, the number is that of the stages without a
result.

## Main statements

- `through_invariant`: what every step keeps is known at the end of a history.
- `next_of_through`: every event of a history has been got through.
- `Ledger.Counted.complete`: writing down a result keeps the count right, whether it is the first
  one of its stage or not.
-/

namespace CommandShell.Pipeline

variable {S : Type} {next : S → Event → Option S}

/-- How far something gets through events, unless one of them must not happen. -/
def through (next : S → Event → Option S) (s : S) (events : List Event) : Option S :=
  events.foldlM next s

@[simp] theorem through_nil (s : S) : through next s [] = some s := rfl

theorem through_cons (s : S) (event : Event) (rest : List Event) :
    through next s (event :: rest) = (next s event).bind fun t => through next t rest := by
  simp [through, bind]

theorem through_append (s : S) (past rest : List Event) :
    through next s (past ++ rest) = (through next s past).bind fun t => through next t rest := by
  simp [through, List.foldlM_append, bind]

theorem through_concat (s : S) (past : List Event) (event : Event) :
    through next s (past ++ [event]) = (through next s past).bind fun t => next t event := by
  simp [through_append, through_cons]

/-- How far something had got before an event that it gets through. -/
theorem next_of_through {s t : S} {past rest : List Event} {event : Event}
    (h : through next s (past ++ event :: rest) = some t) :
    ∃ u v, through next s past = some u ∧ next u event = some v := by
  rw [through_append] at h
  obtain ⟨u, hu, hrest⟩ := Option.bind_eq_some_iff.mp h
  rw [through_cons] at hrest
  obtain ⟨v, hv, -⟩ := Option.bind_eq_some_iff.mp hrest
  exact ⟨u, v, hu, hv⟩

/-- What holds of no events, and survives each event that is got through, holds of a history. -/
theorem through_invariant {P : List Event → S → Prop} {s t : S} (hstart : P [] s)
    (hstep : ∀ past u v event, P past u → next u event = some v → P (past ++ [event]) v)
    {history : List Event} (h : through next s history = some t) : P history t := by
  induction history using List.reverseRecOn generalizing t with
  | nil =>
    obtain rfl := Option.some.inj h
    exact hstart
  | append_singleton past event ih =>
    rw [through_concat] at h
    obtain ⟨u, hu, hnext⟩ := Option.bind_eq_some_iff.mp h
    exact hstep _ _ _ _ (ih hu) hnext

end CommandShell.Pipeline

namespace CommandShell.Pipeline

/-- The results that are written down after an event. -/
def resultsAfter (results : List (Option StageResult)) : Event → List (Option StageResult)
  | .recorded i result _ => results.set i (some result)
  | _ => results

/-- The results that a history of so many stages leaves. -/
def replay (count : Nat) (history : List Event) : List (Option StageResult) :=
  history.foldl resultsAfter (List.replicate count none)

/-- The number of stages that are said to be left after an event. -/
def leftAfter (left : Nat) : Event → Nat
  | .recorded _ _ remaining => remaining
  | _ => left

/-- The number of stages that are said to be left at the end of a history. -/
def left (count : Nat) (history : List Event) : Nat := history.foldl leftAfter count

/-- Whether an event writes down a result. -/
def Event.isRecord : Event → Bool
  | .recorded _ _ _ => true
  | _ => false

theorem replay_concat (count : Nat) (past : List Event) (event : Event) :
    replay count (past ++ [event]) = resultsAfter (replay count past) event := by
  simp [replay]

theorem left_concat (count : Nat) (past : List Event) (event : Event) :
    left count (past ++ [event]) = leftAfter (left count past) event := by
  simp [left]

theorem resultsAfter_of_not_isRecord {event : Event} (h : event.isRecord = false)
    (results : List (Option StageResult)) : resultsAfter results event = results := by
  cases event <;> first | rfl | cases h

theorem leftAfter_of_not_isRecord {event : Event} (h : event.isRecord = false) (n : Nat) :
    leftAfter n event = n := by
  cases event <;> first | rfl | cases h

/-- There is a place for the result of each stage. -/
theorem length_replay (count : Nat) (history : List Event) :
    (replay count history).length = count := by
  induction history using List.reverseRecOn with
  | nil => exact List.length_replicate
  | append_singleton past event ih =>
    rw [replay_concat]
    cases event with
    | recorded i result remaining => exact List.length_set.trans ih
    | _ => exact ih

/-- Where no result is written down, nothing is known and all is left. -/
theorem replay_of_not_isRecord {history : List Event}
    (h : ∀ event ∈ history, event.isRecord = false) (count : Nat) :
      replay count history = List.replicate count none ∧ left count history = count := by
  unfold replay left
  generalize List.replicate count none = results
  induction history generalizing results with
  | nil => exact ⟨rfl, rfl⟩
  | cons event rest ih =>
    have hfirst := h event List.mem_cons_self
    rw [List.foldl_cons, List.foldl_cons, resultsAfter_of_not_isRecord hfirst,
      leftAfter_of_not_isRecord hfirst]
    exact ih (fun e he => h e (List.mem_cons_of_mem _ he)) results

/-- A result in the place of one that was pending makes one pending stage less, any other result
makes no difference. -/
theorem countP_isNone_set (results : List (Option StageResult)) (i : Nat) (result : StageResult) :
    (results.set i (some result)).countP Option.isNone =
      if results[i]? = some none then results.countP Option.isNone - 1
      else results.countP Option.isNone := by
  by_cases hi : i < results.length
  · rw [List.countP_set hi, List.getElem?_eq_getElem hi]
    cases results[i] <;> simp
  · have hnone : results[i]? = none := List.getElem?_eq_none (by omega)
    rw [List.set_eq_of_length_le (by omega), if_neg (by simp [hnone])]

/-- The results and the number of stages that are left are those of a history, and at every point of
the history as many stages were left as had no result. -/
structure Counts (count : Nat) (history : List Event) (results : List (Option StageResult))
    (remaining : Nat) : Prop where
  results : results = replay count history
  remaining : remaining = left count history
  count : ∀ past rest, history = past ++ rest →
    left count past = (replay count past).countP Option.isNone

theorem Counts.remaining_eq {count remaining : Nat} {history : List Event}
    {results : List (Option StageResult)} (h : Counts count history results remaining) :
    remaining = results.countP Option.isNone := by
  rw [h.remaining, h.results]
  exact h.count history [] (by simp)

/-- Before any result is written down, all stages are left. -/
theorem counts_of_not_isRecord {history : List Event}
    (h : ∀ event ∈ history, event.isRecord = false) (count : Nat) :
      Counts count history (List.replicate count none) count where
  results := (replay_of_not_isRecord h count).1.symm
  remaining := (replay_of_not_isRecord h count).2.symm
  count past rest heq := by
    have hpast (event : Event) (hmem : event ∈ past) : event.isRecord = false :=
      h event (heq ▸ List.mem_append_left _ hmem)
    obtain ⟨hreplay, hleft⟩ := replay_of_not_isRecord hpast count
    rw [hreplay, hleft, List.countP_replicate]
    rfl

namespace Ledger

/-- The ledger counts the stages right. -/
abbrev Counted (l : Ledger) : Prop := Counts l.stages.length l.history l.results l.remaining

namespace Counted

variable {l l' : Ledger}

/-- One more event. -/
theorem concat (h : l.Counted) {event : Event} (hstages : l'.stages = l.stages)
    (hhistory : l'.history = l.history ++ [event])
    (hresults : l'.results = resultsAfter l.results event)
    (hremaining : l'.remaining = leftAfter l.remaining event)
    (hcount : l'.remaining = l'.results.countP Option.isNone) : l'.Counted := by
  have hreplay : replay l.stages.length l'.history = l'.results := by
    rw [hhistory, replay_concat, ← h.results, hresults]
  have hleft : left l.stages.length l'.history = l'.remaining := by
    rw [hhistory, left_concat, ← h.remaining, hremaining]
  refine ⟨by rw [hstages, hreplay], by rw [hstages, hleft], fun past rest heq => ?_⟩
  rw [hstages]
  rcases List.eq_nil_or_concat rest with rfl | ⟨rest, last, rfl⟩
  · rw [List.append_nil] at heq
    rw [← heq, hleft, hreplay, hcount]
  · rw [hhistory, List.concat_eq_append, ← List.append_assoc] at heq
    exact h.count past rest (List.append_inj_left' heq rfl)

/-- An event that writes down no result. -/
theorem note (h : l.Counted) {event : Event} (hevent : event.isRecord = false)
    (hstages : l'.stages = l.stages) (hhistory : l'.history = l.history ++ [event])
    (hresults : l'.results = l.results) (hremaining : l'.remaining = l.remaining) : l'.Counted :=
  h.concat hstages hhistory (by rw [hresults, resultsAfter_of_not_isRecord hevent])
    (by rw [hremaining, leftAfter_of_not_isRecord hevent])
    (by rw [hremaining, hresults, h.remaining_eq])

/-- A result is written down, whether it is the first one of its stage or not. -/
theorem complete (h : l.Counted) (i : Nat) (status : Int) (pid : Option Nat) :
    (l.complete i status pid).Counted := by
  refine h.concat rfl rfl rfl rfl ?_
  have hset := countP_isNone_set l.results i
    { command := (l.stages[i]?.map Stage.command).getD "", status, pid }
  rw [← h.remaining_eq] at hset
  simpa [Ledger.complete, Ledger.note, isPending] using hset.symm

end Counted

theorem counted_ofStages (stages : List Stage) : (ofStages stages).Counted := by
  have hresults : (ofStages stages).results = List.replicate stages.length none := List.map_const'
  have hopened (event : Event) (hmem : event ∈ (ofStages stages).history) :
      event.isRecord = false := by
    obtain ⟨e, -, rfl⟩ := List.mem_map.mp hmem
    rfl
  have hcounts := counts_of_not_isRecord hopened stages.length
  rw [← hresults] at hcounts
  exact hcounts

end Ledger

end CommandShell.Pipeline
