import CommandShell.Log
import Mathlib.Data.List.Basic
import Mathlib.Data.List.Induction

/-!
# What a log keeps and what it echoes

A log is called in any order: records are added, it is cleared, and its echo is turned to another
stream or another level. What it keeps depends on the records since it was cleared and on its
capacity alone; what it echoes depends on the records and on the echo in force at each of them
alone.

## Main definitions

* `Log.run`: a sequence of calls, and the lines that are written by it.
* `Log.sinceClear`: the records since the log was cleared last.
* `Log.heardBy`: the records that a stream is to be told, by the echo in force at each of them.
* `Log.Meets`: the criteria of a filter.

## Main statements

* `Log.entries_run`: the entries are the newest records since the log was cleared.
* `Log.linesFor_run`: a stream is told the records that it is to be told.
* `Log.lines_run_congr`: what is echoed depends neither on the capacity nor on when the log is
  cleared.
* `Log.keeps_and_echoes`: all of it, and what a filter returns.
-/

namespace CommandShell.Log

variable {τ : Type}

/-! ## Calls -/

/-- A call of a log. -/
inductive Call (τ : Type) where
  | record (e : Entry)
  | clear
  | echoTo (echo : Option (Echo τ))
  deriving DecidableEq

namespace Call

/-- The record that is added. -/
@[simp] def entry? : Call τ → Option Entry
  | record e => some e
  | clear | echoTo _ => none

/-- The echo that is asked for. -/
@[simp] def echo? : Call τ → Option (Option (Echo τ))
  | echoTo echo => some echo
  | record _ | clear => none

@[simp] def isClear : Call τ → Bool
  | clear => true
  | record _ | echoTo _ => false

/-- The log after a call, and the line that is written to a stream. -/
def perform : Call τ → Log τ → Log τ × Option (τ × String)
  | record e, log => log.record e
  | clear, log => (log.clear, none)
  | echoTo echo, log => (log.echoTo echo, none)

end Call

/-- The log after a sequence of calls, and the lines that are written, each with its stream. -/
def run : List (Call τ) → Log τ → Log τ × List (τ × String)
  | [], log => (log, [])
  | call :: rest, log =>
    let (log, line) := call.perform log
    let (log, lines) := run rest log
    (log, line.toList ++ lines)

/-- What is written to one of the streams. -/
def linesFor [DecidableEq τ] (stream : τ) (lines : List (τ × String)) : List String :=
  (lines.filter fun l => l.1 = stream).map Prod.snd

theorem run_append (calls calls' : List (Call τ)) (log : Log τ) :
    run (calls ++ calls') log =
      ((run calls' (run calls log).1).1,
        (run calls log).2 ++ (run calls' (run calls log).1).2) := by
  induction calls generalizing log with
  | nil => rfl
  | cons call rest ih => simp [run, ih]

theorem run_snoc (calls : List (Call τ)) (call : Call τ) (log : Log τ) :
    run (calls ++ [call]) log =
      ((call.perform (run calls log).1).1,
        (run calls log).2 ++ (call.perform (run calls log).1).2.toList) := by
  rw [run_append]
  simp [run]

/-! ## What is kept -/

/-- The records since the log was cleared last, the oldest first. -/
def sinceClear (calls : List (Call τ)) : List Entry :=
  (calls.reverse.takeWhile fun call => !call.isClear).reverse.filterMap Call.entry?

theorem sinceClear_snoc (calls : List (Call τ)) (call : Call τ) :
    sinceClear (calls ++ [call]) = if call.isClear then [] else sinceClear calls ++
      call.entry?.toList := by
  rw [sinceClear, List.reverse_append, List.reverse_singleton, List.singleton_append,
    List.takeWhile_cons]
  cases call <;> simp [sinceClear]

@[simp] theorem capacity_run (calls : List (Call τ)) (log : Log τ) :
    (run calls log).1.capacity = log.capacity := by
  induction calls generalizing log with
  | nil => rfl
  | cons call rest ih =>
    rw [run]
    exact (ih _).trans (by cases call <;> rfl)

theorem keepNewest_suffix (capacity : Nat) (entries : List Entry) :
    keepNewest capacity entries <:+ entries :=
  List.drop_suffix ..

/-- What is forgotten before a record is added would be forgotten afterwards. -/
theorem keepNewest_keepNewest_append (capacity : Nat) (entries : List Entry) (e : Entry) :
    keepNewest capacity (keepNewest capacity entries ++ [e]) =
      keepNewest capacity (entries ++ [e]) := by
  have hdropped : entries.length - capacity ≤ entries.length + 1 - capacity := by omega
  have hinside : entries.length - capacity ≤ entries.length := by omega
  rw [keepNewest, keepNewest, keepNewest, ← List.drop_append_of_le_length hinside, List.drop_drop]
  congr 1
  simp only [List.length_drop, List.length_append, List.length_singleton]
  omega

/-- The entries are the newest records since the log was cleared. -/
theorem entries_run (calls : List (Call τ)) {log : Log τ} (h : log.entries = []) :
    (run calls log).1.entries = keepNewest log.capacity (sinceClear calls) := by
  induction calls using List.reverseRecOn with
  | nil => simp [run, h, sinceClear, keepNewest]
  | append_singleton calls call ih =>
    rw [run_snoc, sinceClear_snoc]
    cases call with
    | record e => simp [Call.perform, record, ih, keepNewest_keepNewest_append]
    | clear => simp [Call.perform, keepNewest]
    | echoTo echo => simp [Call.perform, ih]

/-! ## What is echoed -/

/-- The echo after a sequence of calls: the one asked for last. -/
def echoAfter (start : Option (Echo τ)) (calls : List (Call τ)) : Option (Echo τ) :=
  (calls.filterMap Call.echo?).getLast?.getD start

/-- Whether a record is to be told to a stream by an echo. -/
def Tells [DecidableEq τ] (stream : τ) (e : Entry) (echo : Option (Echo τ)) : Prop :=
  ∃ target ∈ echo, target.stream = stream ∧ target.least.rank ≤ e.level.rank

instance [DecidableEq τ] (stream : τ) (e : Entry) (echo : Option (Echo τ)) :
    Decidable (Tells stream e echo) :=
  inferInstanceAs (Decidable (∃ target ∈ echo, _))

/-- The records that a stream is to be told, in order: those for which the echo in force when they
are added has the stream and a level that they reach. -/
def heardBy [DecidableEq τ] (stream : τ) (start : Option (Echo τ)) (calls : List (Call τ)) :
    List Entry :=
  calls.zipIdx.filterMap fun (call, i) =>
    call.entry?.filter fun e => Tells stream e (echoAfter start (calls.take i))

theorem echoAfter_snoc (start : Option (Echo τ)) (calls : List (Call τ)) (call : Call τ) :
    echoAfter start (calls ++ [call]) = call.echo?.getD (echoAfter start calls) := by
  cases call <;> simp [echoAfter, List.filterMap_append, List.filterMap_cons]

theorem echo_run (calls : List (Call τ)) (log : Log τ) :
    (run calls log).1.echo = echoAfter log.echo calls := by
  induction calls using List.reverseRecOn with
  | nil => rfl
  | append_singleton calls call ih =>
    rw [run_snoc, echoAfter_snoc]
    cases call with
    | record e => exact ih
    | clear => exact ih
    | echoTo echo => rfl

section Streams

variable [DecidableEq τ] (stream : τ)

theorem heardBy_snoc (start : Option (Echo τ)) (calls : List (Call τ)) (call : Call τ) :
    heardBy stream start (calls ++ [call]) = heardBy stream start calls ++
      (call.entry?.filter fun e => Tells stream e (echoAfter start calls)).toList := by
  rw [heardBy, List.zipIdx_append, List.filterMap_append]
  congr 1
  · refine List.filterMap_congr fun m hm => ?_
    dsimp only
    rw [List.take_append_of_le_length (Nat.le_of_lt (List.snd_lt_of_mem_zipIdx hm))]
  · cases call with
    | record e => by_cases h : Tells stream e (echoAfter start calls) <;> simp [h, Option.filter]
    | clear => rfl
    | echoTo echo => rfl

theorem linesFor_append (lines lines' : List (τ × String)) :
    linesFor stream (lines ++ lines') = linesFor stream lines ++ linesFor stream lines' := by
  simp [linesFor]

/-- A record is written to a stream just if the echo tells it to the stream. -/
theorem linesFor_record (log : Log τ) (e : Entry) :
    linesFor stream (log.record e).2.toList = if Tells stream e log.echo then [e.text ++ "\n"]
      else [] := by
  rw [record]
  cases log.echo with
  | none => simp [linesFor, Tells]
  | some echo =>
    by_cases hleast : echo.least.rank ≤ e.level.rank <;> by_cases hstream : echo.stream = stream <;>
      simp [linesFor, Tells, Level.atLeast, hleast, hstream]

/-- A stream is told the records that it is to be told, each on a line. -/
theorem linesFor_run (calls : List (Call τ)) (log : Log τ) :
    linesFor stream (run calls log).2 = (heardBy stream log.echo calls).map fun e =>
      e.text ++ "\n" := by
  induction calls using List.reverseRecOn with
  | nil => rfl
  | append_singleton calls call ih =>
    rw [run_snoc, linesFor_append, heardBy_snoc, List.map_append, ih]
    congr 1
    cases call with
    | record e =>
      rw [Call.perform, linesFor_record, echo_run]
      split <;> simp_all [Option.filter]
    | clear => rfl
    | echoTo echo => rfl

end Streams

/-- What is echoed depends neither on what is kept nor on when the log is cleared. -/
theorem lines_run_congr (calls : List (Call τ)) {log log' : Log τ} (h : log.echo = log'.echo) :
    (run (calls.filter fun call => !call.isClear) log').2 = (run calls log).2 := by
  induction calls generalizing log log' with
  | nil => rfl
  | cons call rest ih =>
    cases call with
    | record e =>
      have hrun (calls : List (Call τ)) (log : Log τ) :
          (run (.record e :: calls) log).2 = (log.record e).2.toList ++
            (run calls (log.record e).1).2 := rfl
      have hline : (log'.record e).2 = (log.record e).2 := by simp only [record, h]
      have hrest : (run (rest.filter fun call => !call.isClear) (log'.record e).1).2 =
          (run rest (log.record e).1).2 :=
        ih h
      rw [List.filter_cons_of_pos rfl, hrun, hrun, hline, hrest]
    | clear => exact ih h
    | echoTo echo => exact ih rfl

/-! ## Filters -/

/-- The criteria of a filter: a least level and a source, each of which may be missing. -/
def Meets (least : Option Level) (source : Option String) (e : Entry) : Prop :=
  (∀ l ∈ least, l.rank ≤ e.level.rank) ∧ ∀ s ∈ source, e.source = s

theorem mem_filter_iff {log : Log τ} {least : Option Level} {source : Option String} {e : Entry} :
    e ∈ log.filter least source ↔ e ∈ log.entries ∧ Meets least source e := by
  cases least <;> cases source <;> simp [filter, Meets, Level.atLeast]

/-- A filter returns the longest part of the entries, in their order, that meets its criteria. -/
theorem filter_sublist (log : Log τ) (least : Option Level) (source : Option String) :
    (log.filter least source).Sublist log.entries ∧
      ∀ es : List Entry, es.Sublist log.entries → (∀ e ∈ es, Meets least source e) →
        es.Sublist (log.filter least source) := by
  refine ⟨List.filter_sublist, fun es hes hmeets => ?_⟩
  -- nothing of such a part would be filtered out of it
  have hkept : ({ log with entries := es } : Log τ).filter least source = es := by
    refine List.filter_eq_self.mpr fun e he => ?_
    have hmem : e ∈ ({ log with entries := es } : Log τ).filter least source :=
      mem_filter_iff.mpr ⟨he, hmeets e he⟩
    exact (List.mem_filter.mp hmem).2
  rw [← hkept]
  exact hes.filter _

/-- Levels and sources may be filtered one after the other, in either order. -/
theorem filter_filter (log : Log τ) (least : Option Level) (source : Option String) :
    ({ log with entries := log.filter least none } : Log τ).filter none source =
      log.filter least source ∧
      ({ log with entries := log.filter none source } : Log τ).filter least none =
        log.filter least source := by
  simp only [filter, Option.all_none, Bool.and_true, Bool.true_and, List.filter_filter, and_true]
  exact List.filter_congr fun e _ => Bool.and_comm ..

theorem ofCapacity_natCast (capacity : Nat) :
    (ofCapacity capacity : Except Fault (Log τ)) =
      if capacity < capacityLimit then .ok { capacity } else .error .hugeCapacity := by
  have hhuge : (decide ((capacity : Int) < -(capacityLimit : Int)) ||
      decide ((capacityLimit : Int) ≤ capacity)) = !decide (capacity < capacityLimit) := by
    rw [← decide_not]
    simp only [← Bool.decide_or, decide_eq_decide]
    omega
  rw [ofCapacity, hhuge]
  by_cases h : capacity < capacityLimit <;> simp [h]

/-- What a log of any capacity keeps and echoes over any sequence of calls, and what a filter
returns. -/
theorem keeps_and_echoes [DecidableEq τ] (capacity : Nat) (calls : List (Call τ)) :
    let start : Log τ := { capacity }
    let log := (run calls start).1
    (ofCapacity capacity : Except Fault (Log τ)) =
        (if capacity < capacityLimit then .ok start else .error .hugeCapacity) ∧
      (log.entries <:+ sinceClear calls ∧
        log.entries.length = min capacity (sinceClear calls).length) ∧
      (∀ least source,
        (∀ e, e ∈ log.filter least source ↔ e ∈ log.entries ∧ Meets least source e) ∧
        (log.filter least source).Sublist log.entries ∧
        (∀ es : List Entry, es.Sublist log.entries → (∀ e ∈ es, Meets least source e) →
          es.Sublist (log.filter least source)) ∧
        ({ log with entries := log.filter least none } : Log τ).filter none source =
          log.filter least source ∧
        ({ log with entries := log.filter none source } : Log τ).filter least none =
          log.filter least source) ∧
      (∀ stream, linesFor stream (run calls start).2 = (heardBy stream none calls).map fun e =>
        e.text ++ "\n") ∧
      ∀ capacity' : Nat, (run (calls.filter fun call => !call.isClear)
        ({ capacity := capacity' } : Log τ)).2 = (run calls start).2 := by
  intro start log
  refine ⟨?_, ?_, fun least source =>
    ⟨fun e => mem_filter_iff, ?_, ?_, filter_filter log least source⟩,
    fun stream => linesFor_run stream calls start, fun capacity' => lines_run_congr calls rfl⟩
  · exact ofCapacity_natCast capacity
  · have hentries : log.entries = keepNewest capacity (sinceClear calls) := entries_run calls rfl
    rw [hentries, length_keepNewest]
    exact ⟨keepNewest_suffix _ _, rfl⟩
  · exact (filter_sublist log least source).1
  · exact (filter_sublist log least source).2

/-- Calls of a log whose echo is turned to a stream and off again, and that is cleared in
between. -/
def turned : List (Call Bool) :=
  [.record ⟨.error, "a", "x", none⟩, .echoTo (some { stream := true, least := .info }),
    .record ⟨.info, "b", "x", none⟩, .record ⟨.debug, "c", "x", none⟩, .clear,
    .record ⟨.warning, "d", "y", some 7⟩, .echoTo none, .record ⟨.error, "e", "x", none⟩]

/-- A log of one record keeps the last one, and has told the stream those of its time. -/
theorem keeps_and_echoes_turned :
    let log := (run turned ({ capacity := 1 } : Log Bool)).1
    log.entries = [⟨.error, "e", "x", none⟩] ∧ log.filter (some .warning) (some "x") = log.entries ∧
      linesFor true (run turned ({ capacity := 1 } : Log Bool)).2 =
        ["[INFO] x: b\n", "[WARNING] y[7]: d\n"] := by
  intro log
  obtain ⟨-, ⟨hsuffix, hlength⟩, hfilter, hlines, -⟩ := keeps_and_echoes 1 turned
  have hentries : log.entries = [⟨.error, "e", "x", none⟩] := by
    rw [List.suffix_iff_eq_drop.mp hsuffix, hlength]
    decide
  obtain ⟨-, hsublist, hall, -, -⟩ := hfilter (some .warning) (some "x")
  have hmeets : ∀ e ∈ log.entries, Meets (some .warning) (some "x") e := by
    rw [hentries]
    simp [Meets, Level.rank]
  have hfiltered := hsublist.antisymm (hall log.entries (List.Sublist.refl _) hmeets)
  exact ⟨hentries, hfiltered, (hlines true).trans (by decide)⟩

end CommandShell.Log
