import CommandShell.Proofs.Pump
import Mathlib.Data.List.Nodup
import Mathlib.Data.List.Perm.Basic

/-!
# Readers and the pump

Any number of readers put what they read into the queue of the pump, in any order, while the
consumer drains it and is interrupted and called again. What the readers have queued is recorded
with the reader that queued it. So every chunk of a stream is in one of three places, and they keep
its order: what has been written, what is queued, and what has not been read. A call of the consumer
that finds more in the queue while it goes on is one that is interrupted before that and called
again (`Pump.drain_resume`).

## Main statements

- `Pump.Traffic.sound_run`: the invariant of every run.
- `Pump.Traffic.Sound.drained`, `Pump.Traffic.Sound.starved`: what it means that the consumer
  returns or waits.
- `Pump.Traffic.run_conserves`: where the chunks of the streams are in every state that can be
  reached.
-/

namespace CommandShell.Pump

variable {κ τ : Type}

/-- A stream with the reader that reads it. -/
structure Flow (κ : Type) where
  sink : κ
  /-- All that comes out of the stream, as it is read. -/
  chunks : List Bytes
  unread : List Bytes
  /-- The reader has queued the end of the stream. -/
  ended : Bool := false
  deriving DecidableEq

/-- What a reader still has to queue. -/
def Flow.rest (f : Flow κ) : List (Option Bytes) :=
  f.unread.map some ++ if f.ended then [] else [none]

/-- What a reader reads next, and what it has to read after that. -/
def Flow.next? (f : Flow κ) : Option (Option Bytes × Flow κ) :=
  match f.unread with
  | chunk :: rest => some (some chunk, { f with unread := rest })
  | [] => if f.ended then none else some (none, { f with ended := true })

/-- What a reader has queued. -/
structure Posting (κ : Type) where
  reader : Nat
  sink : κ
  item : Option Bytes
  deriving DecidableEq

/-- What is in the queue for a posting. -/
def Posting.entry (e : Posting κ) : κ × Option Bytes := (e.sink, e.item)

/-- Put what has been read for a sink into the queue. -/
def enqueue (p : Pump κ) (sink : κ) : Option Bytes → Pump κ
  | some chunk => p.post sink chunk
  | none => p.finish sink

/-- A pump between its readers and its sinks. What has been queued is written down, and how much of
it has been taken out again; nothing that is done depends on that. -/
structure Traffic (κ τ : Type) where
  sinks : τ
  flows : List (Flow κ) := []
  pump : Pump κ := {}
  postings : List (Posting κ) := []
  taken : Nat := 0

/-- What may happen next. -/
inductive Act (κ : Type) where
  /-- A stream is attached, with a reader for it. -/
  | attach (sink : κ) (chunks : List Bytes)
  /-- A reader queues what it reads next. -/
  | read (reader : Nat)
  /-- The consumer is called. It is interrupted when the budget is used up, and waits when nothing
  is queued. -/
  | drain (budget : Option Nat)

/-- The stream that an act attaches, and the sink that it is for. -/
def Act.attached? : Act κ → Option (κ × List Bytes)
  | .attach sink chunks => some (sink, chunks)
  | .read _ | .drain _ => none

/-- The items that a reader has queued among others. -/
def itemsOf (reader : Nat) (postings : List (Posting κ)) : List (Option Bytes) :=
  (postings.filter fun e => e.reader = reader).map Posting.item

namespace Traffic

def attach (t : Traffic κ τ) (sink : κ) (chunks : List Bytes) : Traffic κ τ :=
  { t with flows := t.flows ++ [{ sink, chunks, unread := chunks }], pump := t.pump.attach }

def read (t : Traffic κ τ) (reader : Nat) : Traffic κ τ :=
  match t.flows[reader]? with
  | none => t
  | some f =>
    match f.next? with
    | none => t
    | some (item, f') =>
      { t with
        flows := t.flows.set reader f'
        pump := t.pump.enqueue f.sink item
        postings := t.postings ++ [{ reader, sink := f.sink, item }] }

def drain (write : κ → Bytes → τ → τ) (t : Traffic κ τ) (budget : Option Nat) :
    Traffic κ τ × Stop :=
  let (pump, sinks, stop) := t.pump.drain write budget t.sinks
  ({ t with pump, sinks, taken := t.taken + (t.pump.queue.length - pump.queue.length) }, stop)

def step (write : κ → Bytes → τ → τ) (t : Traffic κ τ) : Act κ → Traffic κ τ
  | .attach sink chunks => t.attach sink chunks
  | .read reader => t.read reader
  | .drain budget => (t.drain write budget).1

/-- What comes of a sequence of acts, from a pump with no streams on. -/
def run (write : κ → Bytes → τ → τ) (x : τ) (acts : List (Act κ)) : Traffic κ τ :=
  acts.foldl (step write) { sinks := x }

/-- The chunks of a stream that have been written to its sink. -/
def written (t : Traffic κ τ) (reader : Nat) : List Bytes :=
  (itemsOf reader (t.postings.take t.taken)).filterMap id

/-- The chunks of a stream that are queued. -/
def queued (t : Traffic κ τ) (reader : Nat) : List Bytes :=
  (itemsOf reader (t.postings.drop t.taken)).filterMap id

/-- Whether the consumer has seen the end of a stream. -/
def hasSeenEnd (t : Traffic κ τ) (reader : Nat) : Bool :=
  (t.postings.take t.taken).any fun e => e.reader = reader && e.item.isNone

/-- The chunks that a sink has received. -/
def receivedBy [DecidableEq κ] (t : Traffic κ τ) (sink : κ) : List Bytes :=
  ((t.postings.take t.taken).filter fun e => e.sink = sink).filterMap Posting.item

end Traffic

section Lemmas

@[simp] theorem queue_enqueue (p : Pump κ) (sink : κ) (item : Option Bytes) :
    (p.enqueue sink item).queue = p.queue ++ [(sink, item)] := by
  cases item <;> rfl

@[simp] theorem active_enqueue (p : Pump κ) (sink : κ) (item : Option Bytes) :
    (p.enqueue sink item).active = p.active := by
  cases item <;> rfl

theorem itemsOf_append (reader : Nat) (postings postings' : List (Posting κ)) :
    itemsOf reader (postings ++ postings') = itemsOf reader postings ++
      itemsOf reader postings' := by
  simp [itemsOf]

theorem itemsOf_singleton_self (reader : Nat) (sink : κ) (item : Option Bytes) :
    itemsOf reader [{ reader, sink, item }] = [item] := by
  simp [itemsOf]

theorem itemsOf_singleton_ne {reader : Nat} {e : Posting κ} (h : e.reader ≠ reader) :
    itemsOf reader [e] = [] := by
  simp [itemsOf, h]

/-- A reader queues the first of what it still had to queue. -/
theorem Flow.rest_of_next {f f' : Flow κ} {item : Option Bytes} (h : f.next? = some (item, f')) :
    f.rest = item :: f'.rest ∧ f'.sink = f.sink ∧ f'.chunks = f.chunks := by
  unfold next? at h
  unfold rest
  rcases f with ⟨sink, chunks, _ | ⟨chunk, rest⟩, ended⟩
  · cases ended <;> cases h
    exact ⟨rfl, rfl, rfl⟩
  · cases h
    exact ⟨rfl, rfl, rfl⟩

/-- The mark for the end comes last, so nothing follows it. -/
theorem eq_nil_of_end {items rest : List (Option Bytes)} {chunks : List Bytes}
    (h : items ++ rest = chunks.map some ++ [none]) (hend : none ∈ items) : rest = [] := by
  rcases rest.eq_nil_or_concat with hnil | ⟨rest', last, rfl⟩
  · exact hnil
  · rw [List.concat_eq_append, ← List.append_assoc] at h
    have hitems : items ++ rest' = chunks.map some := (List.append_inj' h rfl).1
    have hmem : none ∈ chunks.map some := hitems ▸ List.mem_append_left rest' hend
    simp at hmem

end Lemmas

namespace Traffic

/-- What holds in every state of a run. -/
structure Sound (write : κ → Bytes → τ → τ) (x : τ) (t : Traffic κ τ) : Prop where
  taken_le : t.taken ≤ t.postings.length
  queue : t.pump.queue = (t.postings.drop t.taken).map Posting.entry
  sinks : t.sinks = writeAll write ((t.postings.take t.taken).map Posting.entry) x
  active : t.pump.active + (t.postings.take t.taken).countP (fun e => e.item.isNone) =
    t.flows.length
  /-- What a reader has queued and what it still has to queue make up its stream. -/
  told : ∀ i f, t.flows[i]? = some f → itemsOf i t.postings ++ f.rest = f.chunks.map some ++ [none]
  sender : ∀ e ∈ t.postings, ∃ f, t.flows[e.reader]? = some f ∧ f.sink = e.sink

variable {write : κ → Bytes → τ → τ} {x : τ} {t : Traffic κ τ}

theorem sound_start (write : κ → Bytes → τ → τ) (x : τ) :
    Sound write x ({ sinks := x } : Traffic κ τ) where
  taken_le := Nat.le_refl 0
  queue := rfl
  sinks := rfl
  active := rfl
  told _ _ h := nomatch h
  sender _ h := nomatch h

theorem Sound.attach (ht : Sound write x t) (sink : κ) (chunks : List Bytes) :
    Sound write x (t.attach sink chunks) where
  taken_le := ht.taken_le
  queue := ht.queue
  sinks := ht.sinks
  active := by
    have hactive := ht.active
    simp only [Traffic.attach, active_attach, List.length_append, List.length_singleton]
    omega
  told i f hf := by
    rcases Nat.lt_trichotomy i t.flows.length with hlt | heq | hgt
    · exact ht.told i f ((List.getElem?_append_left hlt).symm.trans hf)
    · -- Nothing has been queued by a reader that was not there.
      have hnone : itemsOf i t.postings = [] := by
        rw [itemsOf, List.map_eq_nil_iff, List.filter_eq_nil_iff]
        intro e he hreader
        obtain ⟨f', hf', -⟩ := ht.sender e he
        have hlt := (List.getElem?_eq_some_iff.mp hf').1
        have hi : e.reader = i := by simpa using hreader
        omega
      subst heq
      obtain rfl : ({ sink, chunks, unread := chunks } : Flow κ) = f := by
        simpa [Traffic.attach] using hf
      exact congrArg (· ++ _) hnone
    · simp [Traffic.attach, List.getElem?_eq_none (by simp; omega : (t.flows ++ [_]).length ≤ i)]
        at hf
  sender e he := by
    obtain ⟨f, hf, hsink⟩ := ht.sender e he
    exact ⟨f, (List.getElem?_append_left (List.getElem?_eq_some_iff.mp hf).1).trans hf, hsink⟩

theorem Sound.read (ht : Sound write x t) (reader : Nat) : Sound write x (t.read reader) := by
  unfold Traffic.read
  split
  · exact ht
  · next f hf =>
    split
    · exact ht
    · next item f' hnext =>
      obtain ⟨hrest, hsink, hchunks⟩ := Flow.rest_of_next hnext
      have hlt := (List.getElem?_eq_some_iff.mp hf).1
      have htake (e : Posting κ) : (t.postings ++ [e]).take t.taken = t.postings.take t.taken :=
        List.take_append_of_le_length ht.taken_le
      exact {
        taken_le := by
          have hle := ht.taken_le
          simp only [List.length_append, List.length_singleton]
          omega
        queue := by
          rw [queue_enqueue, ht.queue, List.drop_append_of_le_length ht.taken_le, List.map_append]
          rfl
        sinks := by rw [htake, ht.sinks]
        active := by rw [htake, active_enqueue, List.length_set, ht.active]
        told := by
          intro i g hg
          rw [itemsOf_append]
          by_cases hi : reader = i
          · subst hi
            obtain rfl : f' = g := Option.some.inj ((List.getElem?_set_self hlt).symm.trans hg)
            rw [itemsOf_singleton_self, hchunks, ← ht.told reader f hf, hrest, List.append_assoc]
            rfl
          · rw [itemsOf_singleton_ne hi, List.append_nil]
            exact ht.told i g ((List.getElem?_set_ne hi).symm.trans hg)
        sender := by
          intro e he
          by_cases hi : reader = e.reader
          · refine ⟨f', hi ▸ List.getElem?_set_self hlt, ?_⟩
            rcases List.mem_append.mp he with hold | hnew
            · obtain ⟨g, hg, hsame⟩ := ht.sender e hold
              obtain rfl : f = g := Option.some.inj (hf.symm.trans (hi ▸ hg))
              exact hsink.trans hsame
            · rw [List.mem_singleton.mp hnew]
              exact hsink
          · rcases List.mem_append.mp he with hold | hnew
            · obtain ⟨g, hg, hsame⟩ := ht.sender e hold
              exact ⟨g, (List.getElem?_set_ne hi).trans hg, hsame⟩
            · exact absurd (congrArg Posting.reader (List.mem_singleton.mp hnew)).symm hi }

/-- Draining moves the border between what has been taken and what is queued. -/
theorem Sound.drain (ht : Sound write x t) (budget : Option Nat) :
    Sound write x (t.drain write budget).1 := by
  obtain ⟨items, hqueue, hsinks, hactive⟩ := drain_takes write t.pump budget t.sinks
  generalize hdrained : t.pump.drain write budget t.sinks = drained at hqueue hsinks hactive
  obtain ⟨pump, sinks, stop⟩ := drained
  dsimp only at hqueue hsinks hactive
  have hcount : t.pump.queue.length - pump.queue.length = items.length := by
    rw [hqueue, List.length_append]
    omega
  have hrest : (t.postings.drop t.taken).map Posting.entry = items ++ pump.queue :=
    ht.queue.symm.trans hqueue
  have hitems : ((t.postings.drop t.taken).take items.length).map Posting.entry = items := by
    rw [List.map_take, hrest, List.take_left]
  have hdrain : (t.drain write budget).1 =
      { t with pump, sinks, taken := t.taken + items.length } := by
    simp only [Traffic.drain, hdrained, hcount]
  rw [hdrain]
  exact {
    taken_le := by
      have hlength := congrArg List.length hrest
      have hle := ht.taken_le
      simp only [List.length_map, List.length_drop, List.length_append] at hlength
      dsimp only
      omega
    queue := by
      dsimp only
      rw [← List.drop_drop, List.map_drop, hrest, List.drop_left]
    sinks := by
      dsimp only
      rw [List.take_add, List.map_append, hitems, writeAll_append, ← ht.sinks, hsinks]
    active := by
      have hends : ((t.postings.drop t.taken).take items.length).countP (fun e => e.item.isNone) =
          items.countP fun item => item.2.isNone := by
        conv_rhs => rw [← hitems, List.countP_map]
        rfl
      have hold := ht.active
      dsimp only
      rw [List.take_add, List.countP_append, hends]
      omega
    told := ht.told
    sender := ht.sender }

theorem sound_step (ht : Sound write x t) (a : Act κ) : Sound write x (t.step write a) := by
  cases a with
  | attach sink chunks => exact ht.attach sink chunks
  | read reader => exact ht.read reader
  | drain budget => exact ht.drain budget

/-- The invariant of every run. -/
theorem sound_run (write : κ → Bytes → τ → τ) (x : τ) (acts : List (Act κ)) :
    Sound write x (run write x acts) := by
  have hfold (t : Traffic κ τ) (ht : Sound write x t) :
      Sound write x (acts.foldl (step write) t) := by
    induction acts generalizing t with
    | nil => exact ht
    | cons a rest ih => exact ih _ (sound_step ht a)
  exact hfold _ (sound_start write x)

section Consequences

variable (ht : Sound write x t)
include ht

/-- The items of a stream in the order of the stream: those taken out, those queued, and those to
come. -/
theorem Sound.items {i : Nat} {f : Flow κ} (hf : t.flows[i]? = some f) :
    itemsOf i (t.postings.take t.taken) ++ itemsOf i (t.postings.drop t.taken) ++ f.rest =
      f.chunks.map some ++ [none] := by
  rw [← itemsOf_append, List.take_append_drop]
  exact ht.told i f hf

theorem Sound.conserves {i : Nat} {f : Flow κ} (hf : t.flows[i]? = some f) :
    t.written i ++ t.queued i ++ f.unread = f.chunks := by
  have hunread : f.rest.filterMap id = f.unread := by
    unfold Flow.rest
    split <;> simp
  have hchunks : (f.chunks.map some ++ [none]).filterMap id = f.chunks := by simp
  rw [← hchunks, ← ht.items hf, List.filterMap_append, List.filterMap_append, hunread]
  rfl

omit ht in
theorem hasSeenEnd_iff (i : Nat) : t.hasSeenEnd i = true ↔
    none ∈ itemsOf i (t.postings.take t.taken) := by
  simp only [hasSeenEnd, itemsOf, List.any_eq_true, List.mem_map, List.mem_filter, Bool.and_eq_true,
    decide_eq_true_eq, Option.isNone_iff_eq_none]
  exact exists_congr fun e => and_assoc.symm

/-- Once its end has been seen, all of a stream has been written. -/
theorem Sound.complete {i : Nat} {f : Flow κ} (hf : t.flows[i]? = some f)
    (hend : t.hasSeenEnd i = true) : t.written i = f.chunks := by
  have hitems := ht.items hf
  rw [List.append_assoc] at hitems
  have hnil := eq_nil_of_end hitems ((hasSeenEnd_iff i).mp hend)
  have hqueued : t.queued i = [] := by
    rw [queued, (List.append_eq_nil_iff.mp hnil).1, List.filterMap_nil]
  have hunread : f.unread = [] := by
    have hrest := (List.append_eq_nil_iff.mp hnil).2
    exact List.map_eq_nil_iff.mp (List.append_eq_nil_iff.mp hrest).1
  have hall := ht.conserves hf
  rwa [hqueued, hunread, List.append_nil, List.append_nil] at hall

/-- The pump counts the streams whose end has not been seen. -/
theorem Sound.active_eq : t.pump.active = (List.range t.flows.length).countP fun i =>
    !t.hasSeenEnd i := by
  -- The readers whose ends have been taken out are different ones, since a stream has one end.
  let ends := ((t.postings.take t.taken).filter fun e => e.item.isNone).map Posting.reader
  have hlength : ends.length = (t.postings.take t.taken).countP fun e => e.item.isNone := by
    rw [List.length_map, List.countP_eq_length_filter]
  have hmem (i : Nat) : i ∈ ends ↔ t.hasSeenEnd i = true := by
    simp only [ends, hasSeenEnd, List.any_eq_true, List.mem_map, List.mem_filter, Bool.and_eq_true,
      decide_eq_true_eq]
    exact exists_congr fun e => by rw [and_assoc, and_comm (a := e.reader = i)]
  have hknown (i : Nat) (hi : i ∈ ends) : i < t.flows.length := by
    obtain ⟨e, he, rfl⟩ := List.mem_map.mp hi
    obtain ⟨f, hf, -⟩ := ht.sender e (List.mem_of_mem_take (List.mem_filter.mp he).1)
    exact (List.getElem?_eq_some_iff.mp hf).1
  have hnodup : ends.Nodup := by
    refine List.nodup_iff_count_le_one.mpr fun i => ?_
    by_cases hi : i ∈ ends
    · have hsame : ends.count i = (itemsOf i (t.postings.take t.taken)).count none := by
        simp only [ends, itemsOf, List.count, List.countP_map, List.countP_filter]
        refine List.countP_congr fun e _ => ?_
        cases hitem : e.item <;> simp [hitem]
      have hall := congrArg (List.count none) (ht.items (List.getElem?_eq_getElem (hknown i hi)))
      have hone (chunks : List Bytes) : (chunks.map some).count none = 0 :=
        List.count_eq_zero.mpr (by simp)
      simp only [List.count_append, hone, List.count_singleton_self] at hall
      omega
    · rw [List.count_eq_zero.mpr hi]
      exact Nat.zero_le 1
  have hperm : ends.Perm ((List.range t.flows.length).filter fun i => t.hasSeenEnd i) := by
    refine (List.perm_ext_iff_of_nodup hnodup (List.nodup_range.filter _)).mpr fun i => ?_
    rw [List.mem_filter, List.mem_range, hmem]
    exact ⟨fun h => ⟨hknown i ((hmem i).mpr h), h⟩, And.right⟩
  have hseen : ends.length = (List.range t.flows.length).countP fun i => t.hasSeenEnd i := by
    rw [hperm.length_eq, List.countP_eq_length_filter]
  have hsplit :=
    List.length_eq_countP_add_countP (fun i => t.hasSeenEnd i) (l := List.range t.flows.length)
  have hactive := ht.active
  rw [List.length_range] at hsplit
  have hunseen : (List.range t.flows.length).countP (fun i => decide ¬ t.hasSeenEnd i = true) =
      (List.range t.flows.length).countP fun i => !t.hasSeenEnd i := List.countP_congr (by simp)
  omega

/-- When nothing is queued, a stream whose end has not been seen has a reader that is not done. -/
theorem Sound.unended {i : Nat} {f : Flow κ} (hf : t.flows[i]? = some f)
    (hqueue : t.pump.queue = []) (hunseen : t.hasSeenEnd i = false) : f.ended = false := by
  have hdrop : t.postings.drop t.taken = [] := List.map_eq_nil_iff.mp (ht.queue.symm.trans hqueue)
  have hmem : none ∈ itemsOf i (t.postings.take t.taken) ++
      itemsOf i (t.postings.drop t.taken) ++ f.rest :=
    ht.items hf ▸ List.mem_append_right _ (List.mem_singleton_self none)
  have hnot : none ∉ itemsOf i (t.postings.take t.taken) := fun hend => by
    rw [(hasSeenEnd_iff i).mpr hend] at hunseen
    cases hunseen
  have hrest : none ∈ f.rest := by
    rw [hdrop, show itemsOf i ([] : List (Posting κ)) = [] from rfl, List.append_nil] at hmem
    exact (List.mem_append.mp hmem).resolve_left hnot
  unfold Flow.rest at hrest
  by_contra hended
  simp [hended] at hrest

/-- A sink that is fed by one stream receives what has been written of that stream. -/
theorem Sound.receivedBy_eq [DecidableEq κ] {i : Nat} {f : Flow κ} (hf : t.flows[i]? = some f)
    (hlone : ∀ j g, t.flows[j]? = some g → g.sink = f.sink → j = i) :
      t.receivedBy f.sink = t.written i := by
  have hsame : (t.postings.take t.taken).filter (fun e => e.sink = f.sink) =
      (t.postings.take t.taken).filter fun e => e.reader = i := by
    refine List.filter_congr fun e he => ?_
    obtain ⟨g, hg, hsink⟩ := ht.sender e (List.mem_of_mem_take he)
    rw [decide_eq_decide]
    constructor
    · exact fun hfed => hlone e.reader g hg (hsink.trans hfed)
    · intro hreader
      obtain rfl : f = g := Option.some.inj (hf.symm.trans (hreader ▸ hg))
      exact hsink.symm
  rw [receivedBy, hsame, written, itemsOf, List.filterMap_map]
  rfl

/-- When the consumer returns, every stream has been written completely, and a sink that is fed by
one stream has received just that stream. -/
theorem Sound.drained [DecidableEq κ] {budget left : Option Nat}
    (hstop : (t.drain write budget).2 = .drained left) {i : Nat} {f : Flow κ}
    (hf : t.flows[i]? = some f) : (t.drain write budget).1.written i = f.chunks ∧
      ((∀ j g, t.flows[j]? = some g → g.sink = f.sink → j = i) →
        (t.drain write budget).1.receivedBy f.sink = f.chunks) := by
  have ht' := ht.drain budget
  have hactive : (t.drain write budget).1.pump.active = 0 := by
    have hzero := drain_stop write t.pump budget t.sinks
    rw [show (t.pump.drain write budget t.sinks).2.2 = .drained left from hstop] at hzero
    exact hzero
  have hend : (t.drain write budget).1.hasSeenEnd i = true := by
    have hnone := List.countP_eq_zero.mp (ht'.active_eq.symm.trans hactive) i
      (List.mem_range.mpr (List.getElem?_eq_some_iff.mp hf).1)
    simpa using hnone
  have hwritten := ht'.complete hf hend
  exact ⟨hwritten, fun hlone => (ht'.receivedBy_eq hf hlone).trans hwritten⟩

/-- When the consumer waits, a reader is not done. -/
theorem Sound.starved {budget : Option Nat} (hstop : (t.drain write budget).2 = .starved) :
    ∃ f ∈ t.flows, f.ended = false := by
  have ht' := ht.drain budget
  obtain ⟨hactive, hqueue⟩ : 0 < (t.drain write budget).1.pump.active ∧
      (t.drain write budget).1.pump.queue = [] := by
    have hwaiting := drain_stop write t.pump budget t.sinks
    rw [show (t.pump.drain write budget t.sinks).2.2 = .starved from hstop] at hwaiting
    exact hwaiting
  obtain ⟨i, hi, hunseen⟩ := List.countP_pos_iff.mp (ht'.active_eq ▸ hactive)
  have hlt := List.mem_range.mp hi
  exact ⟨_, List.getElem_mem hlt,
    ht'.unended (List.getElem?_eq_getElem hlt) hqueue (by simpa using hunseen)⟩

end Consequences

/-- An act changes neither what the streams are nor where they go. -/
theorem flows_step (write : κ → Bytes → τ → τ) (t : Traffic κ τ) (a : Act κ) :
    (t.step write a).flows.map (fun f => (f.sink, f.chunks)) =
      t.flows.map (fun f => (f.sink, f.chunks)) ++ a.attached?.toList := by
  cases a with
  | attach sink chunks => simp [step, Traffic.attach, Act.attached?]
  | read reader =>
    have hread : (t.read reader).flows.map (fun f => (f.sink, f.chunks)) = t.flows.map fun f =>
        (f.sink, f.chunks) := by
      unfold Traffic.read
      split
      · rfl
      · next f hf =>
        split
        · rfl
        · next item f' hnext =>
          obtain ⟨-, hsink, hchunks⟩ := Flow.rest_of_next hnext
          obtain ⟨hlt, hget⟩ := List.getElem?_eq_some_iff.mp hf
          have hbound : reader < (t.flows.map fun f => (f.sink, f.chunks)).length := by
            rwa [List.length_map]
          have hsame : (f'.sink, f'.chunks) =
              (t.flows.map fun f => (f.sink, f.chunks))[reader] := by
            rw [List.getElem_map, hget, hsink, hchunks]
          rw [List.map_set, hsame, List.set_getElem_self]
    exact hread.trans (List.append_nil _).symm
  | drain budget => exact (List.append_nil _).symm

/-- The streams are those that have been attached, in order. -/
theorem flows_run (write : κ → Bytes → τ → τ) (x : τ) (acts : List (Act κ)) :
    (run write x acts).flows.map (fun f => (f.sink, f.chunks)) = acts.filterMap Act.attached? := by
  have hfold (t : Traffic κ τ) :
      (acts.foldl (step write) t).flows.map (fun f => (f.sink, f.chunks)) =
      t.flows.map (fun f => (f.sink, f.chunks)) ++ acts.filterMap Act.attached? := by
    induction acts generalizing t with
    | nil => exact (List.append_nil _).symm
    | cons a rest ih =>
      rw [List.foldl_cons, ih, flows_step, List.append_assoc]
      congr 1
      cases hstream : a.attached? <;> simp [hstream]
  exact hfold _

/-- In every state that can be reached, what has been written of a stream, what of it is queued and
what has not been read are the stream, and the pump counts the streams whose end it has not seen. So
when the consumer returns, every stream has been written completely, and a sink with one stream has
received just that stream, in whatever order things happened; and it never waits when all readers
are done. -/
theorem run_conserves [DecidableEq κ] (write : κ → Bytes → τ → τ) (x : τ) (acts : List (Act κ)) :
    let t := run write x acts
    t.flows.map (fun f => (f.sink, f.chunks)) = acts.filterMap Act.attached? ∧
      t.sinks = writeAll write ((t.postings.take t.taken).map Posting.entry) x ∧
      t.pump.queue = (t.postings.drop t.taken).map Posting.entry ∧
      (∀ i f, t.flows[i]? = some f → t.written i ++ t.queued i ++ f.unread = f.chunks) ∧
      t.pump.active = (List.range t.flows.length).countP (fun i => !t.hasSeenEnd i) ∧
      (∀ budget left, (t.drain write budget).2 = .drained left → ∀ i f, t.flows[i]? = some f →
        (t.drain write budget).1.written i = f.chunks ∧
          ((∀ j g, t.flows[j]? = some g → g.sink = f.sink → j = i) →
            (t.drain write budget).1.receivedBy f.sink = f.chunks)) ∧
      ∀ budget, (t.drain write budget).2 = .starved → ∃ f ∈ t.flows, f.ended = false := by
  intro t
  have ht : Sound write x t := sound_run write x acts
  exact ⟨flows_run write x acts, ht.sinks, ht.queue, fun i f hf => ht.conserves hf, ht.active_eq,
    fun budget left hstop i f hf => ht.drained hstop hf, fun budget hstop => ht.starved hstop⟩

/-- Two streams whose readers take turns, and a consumer that is interrupted, waits, and then
returns. -/
theorem run_conserves_turns :
    let write (sink : Bool) (chunk : Bytes) (x : List (Bool × Bytes)) := x ++ [(sink, chunk)]
    let t := run write [] [.attach true [[1], [2]], .attach false [[3]], .read 1, .read 0,
      .drain (some 1), .read 1, .drain none, .read 0, .read 0]
    (t.drain write none).2 = .drained none ∧ (t.drain write none).1.written 1 = [[3]] ∧
      (t.drain write none).1.receivedBy true = [[1], [2]] := by
  intro write t
  have hflows : t.flows = [⟨true, [[1], [2]], [], true⟩, ⟨false, [[3]], [], true⟩] := by decide
  have hdrained : (t.drain write none).2 = .drained none := by decide
  obtain ⟨-, -, -, -, -, hcomplete, -⟩ :=
    run_conserves write [] [.attach true [[1], [2]], .attach false [[3]], .read 1,
    .read 0, .drain (some 1), .read 1, .drain none, .read 0, .read 0]
  have hlone : ∀ j g, t.flows[j]? = some g → g.sink = true → j = 0 := by
    rw [hflows]
    rintro (_ | _ | j) g hg hsink
    · rfl
    · cases hg
      cases hsink
    · cases hg
  exact ⟨hdrained, (hcomplete none none hdrained 1 _ (by rw [hflows]; rfl)).1,
    (hcomplete none none hdrained 0 ⟨true, [[1], [2]], [], true⟩ (by rw [hflows]; rfl)).2 hlone⟩

end Traffic

end CommandShell.Pump
