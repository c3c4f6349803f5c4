import CommandShell.Proofs.Flow.Schedule
import CommandShell.Proofs.Spool.Sink

/-!
# What the shell writes into a chain

A builtin is a stage of a chain that the shell writes the output of: through a sink, which gathers
text before it is put into the pipe. While the pipe is full the programs run; they empty it in the
end, or nobody reads it any more.

## Main statements

- `Chain.Pours.push`: what is put into the pipe behind a stage.
- `Buffered.Pouring.write`, `Sink.Pouring.write`, `Sink.Pouring.flush`: operations on a sink before
  the pipe.
- `Sink.Pouring.close`: when the sink has been closed, everything has been put into the pipe.
-/

namespace CommandShell

/-- The outlook when there is only so much left of the output of a stage. -/
def Outlook.leave (o : Outlook) (i : Nat) (rest : Bytes) : Outlook :=
  o.set i (o.work i) (Function.update (o.coming i) .out rest) o.arrived

@[simp] theorem Outlook.coming_leave_out (o : Outlook) (i : Nat) (rest : Bytes) :
    (o.leave i rest).coming i .out = rest := by
  simp [leave]

@[simp] theorem Outlook.coming_leave_of_ne (o : Outlook) {i j : Nat} (rest : Bytes) (h : j ≠ i) :
    (o.leave i rest).coming j = o.coming j := by
  simp [leave, h]

@[simp] theorem Outlook.work_leave (o : Outlook) (i : Nat) (rest : Bytes) :
    (o.leave i rest).work = o.work := by
  simp [leave, set]

@[simp] theorem Outlook.arrived_leave (o : Outlook) (i : Nat) (rest : Bytes) :
    (o.leave i rest).arrived = o.arrived := rfl

namespace Chain

variable {C : Chain} {shown : Bytes} {o o₀ : Outlook} {k k₀ : Kernel} {i : Nat} {todo : Bytes}

/-- The shell writes the output of a stage. -/
structure Feeds (C : Chain) (i : Nat) (o : Outlook) (k : Kernel) : Prop where
  stage : i + 1 < C.length
  writer : .writer (C.base + i) ∈ k.held
  nobody : ¬ C.Manned k i
  patience : C.total o < k.patience

/-- The shell has written something of the output of a stage. There is so much left that it has not
put into the pipe, or nobody is going to read it. -/
structure Pours (C : Chain) (shown : Bytes) (i : Nat) (o₀ : Outlook) (k₀ : Kernel) (todo : Bytes)
    (k : Kernel) : Prop where
  held : k.held = k₀.held
  patience : k.patience = k₀.patience
  still : k₀.Still k
  flows : ∃ o, C.Flows shown o k ∧ C.Evolves (· = i) o₀ k₀ o k ∧
    (o.coming i .out = todo ∨ ¬ C.Manned k (i + 1))

theorem isReady_iff {n : Nat} :
    k.isReady n = true ↔ (k.pipeContent n).size < Kernel.pipeSize ∨
      ¬ k.isHeld (.reader n) = true := by
  simp [Kernel.isReady]

/-- The shell puts something into the pipe behind a stage. -/
theorem Flows.feed (h : C.Flows shown o k) (hf : C.Feeds i o k) {part : ByteArray} {rest : Bytes}
    (hcoming : o.coming i .out = unpack part ++ rest) :
    C.Flows shown (o.leave i rest) (k.setPipe (C.base + i) (k.pipeContent (C.base + i) ++ part)) ∧
      C.Evolves (· = i) o k (o.leave i rest)
        (k.setPipe (C.base + i) (k.pipeContent (C.base + i) ++ part)) := by
  have hstage := hf.stage
  have hsupply (j : Nat) : C.supply (o.leave i rest)
      (k.setPipe (C.base + i) (k.pipeContent (C.base + i) ++ part)) j = C.supply o k j := by
    cases j with
    | zero => rfl
    | succ j =>
      by_cases hj : j = i
      · subst hj
        simp [supply, hcoming]
      · simp only [supply, Outlook.coming_leave_of_ne o rest hj,
          Kernel.pipeContent_setPipe_of_ne k (by omega : C.base + j ≠ C.base + i)]
  refine ⟨⟨fun t ht => ?_, h.pids, h.seats, h.reading, fun j hj hn hheld hm => ?_, fun j hj hn c =>
    ?_, h.port, h.landed⟩,
    ⟨fun t ht _ _ hm => ⟨t, ht, rfl, hm⟩, fun j _ hj => Outlook.coming_leave_of_ne o rest hj,
      ⟨[], by simp, fun j hj c => ?_⟩, by simp [total]⟩⟩
  · obtain ⟨j, err, hw⟩ | hc := h.tasks t ht
    · have hji : j ≠ i := by
        rintro rfl
        exact hf.nobody ⟨t, ht, err, hw.mans⟩
      refine .inl ⟨j, err, hw.mans, hw.stage, hw.takes, hw.merged, hw.apart, ?_⟩
      rw [hsupply, Outlook.work_leave, Outlook.coming_leave_of_ne o rest hji]
      exact hw.returns
    · exact .inr hc
  · have hji : j ≠ i := by
      rintro rfl
      exact hheld hf.writer
    rw [Outlook.coming_leave_of_ne o rest hji]
    exact h.dry j hj hn hheld hm
  · rw [Outlook.coming_leave_of_ne o rest (by omega)]
    exact h.done j hj hn c
  · rw [Outlook.coming_leave_of_ne o rest (by omega)]
    rfl

namespace Pours

/-- What nobody reads makes no difference. -/
theorem deaf (h : C.Pours shown i o₀ k₀ todo k) (hn : ¬ C.Manned k (i + 1)) (todo' : Bytes) :
    C.Pours shown i o₀ k₀ todo' k := by
  obtain ⟨o, hflows, hevolves, -⟩ := h.flows
  exact ⟨h.held, h.patience, h.still, o, hflows, hevolves, .inr hn⟩

variable (hf : C.Feeds i o₀ k₀)
include hf

/-- The shell writes the output of the stage still. -/
theorem feeds (h : C.Pours shown i o₀ k₀ todo k) (hevolves : C.Evolves (· = i) o₀ k₀ o k) :
    C.Feeds i o k where
  stage := hf.stage
  writer := h.held ▸ hf.writer
  nobody hm := hf.nobody (hevolves.was_manned hm)
  patience := by
    rw [h.patience]
    exact Nat.lt_of_le_of_lt hevolves.work hf.patience

/-- The shell waits until there is room in the pipe. -/
theorem ready (h : C.Pours shown i o₀ k₀ todo k) :
    C.Pours shown i o₀ k₀ todo (k.runPatiently fun k => k.isReady (C.base + i)) ∧
      (k.runPatiently fun k => k.isReady (C.base + i)).isReady (C.base + i) = true := by
  obtain ⟨o, hflows, hevolves, hcoming⟩ := h.flows
  have hfeeds := h.feeds hf hevolves
  obtain ⟨o', hruns, hheld, hpatience, hend⟩ :=
    hflows.runPatiently (fun k => k.isReady (C.base + i)) hfeeds.patience
  have hsame : o'.coming i = o.coming i := hruns.evolves.idle i hfeeds.nobody id
  refine ⟨⟨hheld.trans h.held, hpatience.trans h.patience, h.still.trans hruns.still, o',
    hruns.flows, hevolves.trans (hruns.evolves.mono nofun), ?_⟩, ?_⟩
  · rw [hsame]
    exact hcoming.imp id fun hn hm => hn (hruns.evolves.was_manned hm)
  · refine hend.elim id fun hblocked => ?_
    -- The reader of a pipe that is not empty would wait for the one behind it.
    by_contra hfull
    rw [isReady_iff, not_or, not_not] at hfull
    obtain ⟨j, hj, hempty, -⟩ :=
      hruns.flows.reads_of_blocked hblocked ((hruns.flows.isHeld_reader i).mp hfull.2)
    obtain rfl : i = j := Nat.succ.inj hj
    exact hfull.1 (hempty ▸ by decide)

/-- What is put into the pipe is read, or nobody reads it any more. -/
theorem push {n : Nat} {bytes : ByteArray} (h : C.Pours shown i o₀ k₀ (unpack bytes ++ todo) k)
    (hpos : 0 < bytes.size) (hn : bytes.size ≤ n) :
      C.Pours shown i o₀ k₀ todo (k.push (C.base + i) n bytes).1 ∧
      ((k.push (C.base + i) n bytes).2 = true →
        ¬ C.Manned (k.push (C.base + i) n bytes).1 (i + 1)) := by
  induction n generalizing k bytes with
  | zero => omega
  | succ n ih =>
    unfold Kernel.push
    extract_lets k₁ content room k₂
    have hready : C.Pours shown i o₀ k₀ (unpack bytes ++ todo) k₁ ∧
        k₁.isReady (C.base + i) = true := by
      unfold k₁
      split
      · next hready => exact ⟨h, hready⟩
      · exact h.ready hf
    obtain ⟨h₁, hroom⟩ := hready
    obtain ⟨o, hflows, hevolves, hcoming⟩ := h₁.flows
    split
    · next hgone =>
      have hn : ¬ C.Manned k₁ (i + 1) :=
        fun hm => by simp [(hflows.isHeld_reader i).mpr hm] at hgone
      exact ⟨h₁.deaf hn todo, fun _ => hn⟩
    · next hread =>
      rw [if_neg (by simp [hroom])]
      have hm : C.Manned k₁ (i + 1) := (hflows.isHeld_reader i).mp (by simpa using hread)
      have hout := hcoming.resolve_right (not_not_intro hm)
      have hfeeds := h₁.feeds hf hevolves
      have hfilled (part : ByteArray) (rest : Bytes)
          (hpart : unpack bytes ++ todo = unpack part ++ rest) :
          C.Pours shown i o₀ k₀ rest (k₁.setPipe (C.base + i) (content ++ part)) := by
        obtain ⟨hflows', hevolves'⟩ := hflows.feed hfeeds (hout.trans hpart)
        exact ⟨h₁.held, h₁.patience, ⟨h₁.still.opened, h₁.still.kept, h₁.still.files⟩, _, hflows',
          hevolves.trans hevolves', .inl (Outlook.coming_leave_out ..)⟩
      split
      · next hfits =>
        have hall : bytes.extract 0 room = bytes := by
          rw [ByteArray.ext_iff, ByteArray.data_extract, Array.extract_eq_self_iff]
          exact .inr ⟨rfl, hfits⟩
        exact ⟨hfilled _ _ (by rw [hall]), by simp⟩
      · next hmore =>
        have hsize : (bytes.extract room bytes.size).size = bytes.size - room := by simp
        have hspace : 0 < room := by
          have hlt :=
            (isReady_iff.mp hroom).resolve_right (not_not_intro ((hflows.isHeld_reader i).mpr hm))
          exact Nat.sub_pos_of_lt hlt
        exact ih (hfilled _ _ (by rw [← List.append_assoc, ← unpack_split])) (by omega) (by omega)

/-- The shell writes to the pipe behind a stage. -/
theorem put {bytes : Bytes} (h : C.Pours shown i o₀ k₀ (bytes ++ todo) k) :
    C.Pours shown i o₀ k₀ todo (k.put (.writer (C.base + i)) (pack bytes)).1 ∧
      ((k.put (.writer (C.base + i)) (pack bytes)).2 = true →
        ¬ C.Manned (k.put (.writer (C.base + i)) (pack bytes)).1 (i + 1)) := by
  simp only [Kernel.put]
  split
  · next hnone =>
    have hnil : bytes = [] := by simpa [pack, ByteArray.size] using hnone
    rw [hnil] at h
    exact ⟨h, by simp⟩
  · next hsome =>
    rw [← unpack_pack bytes] at h
    exact h.push hf (Nat.pos_of_ne_zero hsome) (Nat.le_refl _)

end Pours

/-- The shell has written all that is read of the output of a stage, and does not hold the pipe any
more. -/
structure Poured (C : Chain) (shown : Bytes) (i : Nat) (o₀ : Outlook) (k₀ k : Kernel) : Prop where
  held : k.held = k₀.held.erase (.writer (C.base + i))
  patience : k.patience = k₀.patience
  still : k₀.Still k
  flows : ∃ o, C.Flows shown o k ∧ C.Evolves (· = i) o₀ k₀ o k

/-- The shell lets go of the pipe behind a stage. -/
theorem Pours.letGo (hf : C.Feeds i o₀ k₀) (h : C.Pours shown i o₀ k₀ [] k) :
    C.Poured shown i o₀ k₀ (k.letGo (.writer (C.base + i))) := by
  obtain ⟨o, hflows, hevolves, hcoming⟩ := h.flows
  have hsheds := Kernel.sheds_release (k := { k with held := k.held.erase (.writer (C.base + i)) })
    (x := .writer (C.base + i)) nofun
  have hgone := Kernel.SameTasks.release { k with held := k.held.erase (.writer (C.base + i)) }
    [] (.writer (C.base + i))
  change C.Poured shown i o₀ k₀
      (Kernel.release { k with held := k.held.erase (.writer (C.base + i)) } [] _)
  generalize Kernel.release { k with held := k.held.erase (.writer (C.base + i)) } [] _ =
    k' at hsheds hgone
  have hmanned (j : Nat) : C.Manned k' j ↔ C.Manned k j := by simp only [Manned, hsheds.tasks]
  have htakes (x : Handle) (hx : k.Takes x) : k'.Takes x := by
    unfold Kernel.Takes at hx ⊢
    rw [hsheds.held, hsheds.opened]
    cases x with
    | file m => exact ⟨(List.mem_erase_of_ne (by simp)).mpr hx.1, hx.2⟩
    | _ => exact hx
  have hstill : k.Still k' := .of_eq hsheds.opened hsheds.files
  refine ⟨hsheds.held.trans (by rw [h.held]), hgone.patience.trans h.patience,
    h.still.trans hstill, o,
    ⟨fun t ht => ?_, hsheds.tasks ▸ hflows.pids, hsheds.tasks ▸ hflows.seats, fun j hj =>
      hflows.reading j ?_,
      fun j hj hn hheld hm => ?_, fun j hj hn => hflows.done j hj fun hm => hn ((hmanned j).mpr hm),
      htakes _ hflows.port, ?_⟩,
    hevolves.trans ⟨fun t ht _ _ hm => ⟨t, hsheds.tasks ▸ ht, rfl, hm⟩, fun _ _ _ => rfl,
      ⟨[], by simp, fun _ _ _ => rfl⟩, Nat.le_refl _⟩⟩
  · obtain ⟨j, err, hw⟩ | hc := hflows.tasks t (hsheds.tasks ▸ ht)
    · refine .inl ⟨j, err, hw.mans, hw.stage, htakes _ hw.takes, hw.merged, hw.apart, ?_⟩
      have hsupply : C.supply o k' j = C.supply o k j := by
        cases j with
        | zero => rfl
        | succ j =>
          -- What is in a pipe stays if somebody reads it.
          have hheld : Kernel.isHeld { k with held := k.held.erase (.writer (C.base + i)) }
              (.reader (C.base + j)) = true :=
            Kernel.isHeld_iff.mpr (.inr ⟨t, hsheds.tasks ▸ ht, by simp [hw.mans.handles, input]⟩)
          have hpipe : k'.pipeContent (C.base + j) = k.pipeContent (C.base + j) :=
            hsheds.pipes _ hheld
          simp only [supply, hpipe]
      rw [hsupply]
      exact hw.returns
    · exact .inr hc
  · exact List.mem_of_mem_erase (hsheds.held ▸ hj)
  · by_cases hji : j = i
    · subst hji
      exact hcoming.resolve_right (not_not_intro ((hmanned (j + 1)).mp hm))
    · refine hflows.dry j hj (fun hm => hn ((hmanned j).mpr hm)) (fun hmem => hheld ?_)
        ((hmanned (j + 1)).mp hm)
      rw [hsheds.held]
      exact (List.mem_erase_of_ne (by simpa using hji)).mpr hmem
  · obtain ⟨bytes, hlanded, harrived⟩ := hflows.landed
    exact ⟨bytes, hlanded.congr hsheds.spilled hsheds.opened hsheds.files, harrived⟩

end Chain

section Streams

variable {C : Chain} {shown : Bytes} {o₀ : Outlook} {k k₀ : Kernel} {i : Nat} {todo : Bytes}

/-- A stream into the pipe behind a stage: what waits in it and what is left of the output of the
stage are together what has not been put into the pipe. -/
structure Buffered.Pouring (C : Chain) (shown : Bytes) (i : Nat) (o₀ : Outlook) (k₀ : Kernel)
    (todo : Bytes) (s : Buffered Handle) (k : Kernel) : Prop where
  device : s.device = .writer (C.base + i)
  isOpen : s.isOpen = true
  pours : C.Pours shown i o₀ k₀ (s.buffer ++ (s.gathered ++ todo)) k

/-- How an operation on a stream into a pipe ends. -/
structure Stream.Reply.Pouring (C : Chain) (shown : Bytes) (i : Nat) (o₀ : Outlook) (k₀ : Kernel)
    (todo : Bytes) (r : Stream.Reply (Buffered Handle) Kernel) : Prop where
  stream : r.stream.Pouring C shown i o₀ k₀ todo r.world
  broken : r.broken = true → ¬ C.Manned r.world (i + 1)

variable (hf : C.Feeds i o₀ k₀)
include hf

namespace Buffered.Pouring

variable {s : Buffered Handle}

theorem flushBuffer (h : s.Pouring C shown i o₀ k₀ todo k) :
    (s.flushBuffer k).Pouring C shown i o₀ k₀ todo ∧
      (s.flushBuffer k).stream.gathered = s.gathered ∧
      ((s.flushBuffer k).broken = false → (s.flushBuffer k).stream.buffer = []) := by
  unfold Buffered.flushBuffer
  split
  · next hempty => exact ⟨⟨h, nofun⟩, rfl, fun _ => List.isEmpty_iff.mp hempty⟩
  · obtain ⟨hput, hbroken⟩ := h.pours.put hf
    simp only [Device.put, h.device]
    generalize k.put (.writer (C.base + i)) (pack s.buffer) = result at hput hbroken
    obtain ⟨k', broken⟩ := result
    cases broken with
    | false => exact ⟨⟨⟨rfl, h.isOpen, hput⟩, hbroken⟩, trivial, fun _ => rfl⟩
    | true => exact ⟨⟨⟨rfl, h.isOpen, hput.deaf (hbroken rfl) _⟩, hbroken⟩, trivial, nofun⟩

theorem push {bytes : Bytes} (h : s.Pouring C shown i o₀ k₀ (bytes ++ todo) k)
    (hgathered : s.gathered = []) : (Buffered.push bytes s k).Pouring C shown i o₀ k₀ todo ∧
    (Buffered.push bytes s k).stream.gathered = [] := by
  obtain ⟨hflush, hgathered', hbuffer⟩ := h.flushBuffer hf
  rw [hgathered] at hgathered'
  unfold Buffered.push
  generalize s.flushBuffer k = r at hflush hbuffer hgathered'
  dsimp only
  split
  · refine ⟨⟨⟨h.device, h.isOpen, ?_⟩, by simp⟩, hgathered⟩
    simpa [hgathered] using h.pours
  · split
    · next hbroken =>
      have hdeaf := hflush.broken hbroken
      exact ⟨⟨⟨hflush.stream.device, hflush.stream.isOpen, hflush.stream.pours.deaf hdeaf _⟩,
        hflush.broken⟩, hgathered'⟩
    · next hfine =>
      have hempty := hbuffer (by simpa using hfine)
      have hpours := hflush.stream.pours
      rw [hempty, hgathered', List.nil_append, List.nil_append] at hpours
      split
      · obtain ⟨hput, hgone⟩ := hpours.put hf
        simp only [Device.put, hflush.stream.device]
        exact ⟨⟨⟨rfl, hflush.stream.isOpen, by simpa [hempty, hgathered'] using hput⟩, hgone⟩,
          hgathered'⟩
      · exact ⟨⟨⟨hflush.stream.device, hflush.stream.isOpen, by simpa [hgathered'] using hpours⟩, by
          simp⟩, hgathered'⟩

theorem pushGathered (h : s.Pouring C shown i o₀ k₀ todo k) :
    (s.pushGathered k).Pouring C shown i o₀ k₀ todo ∧ (s.pushGathered k).stream.gathered = [] := by
  unfold Buffered.pushGathered
  split
  · next hempty => exact ⟨⟨h, nofun⟩, List.isEmpty_iff.mp hempty⟩
  · have hrest : Buffered.Pouring C shown i o₀ k₀ (s.gathered ++ todo)
        { s with gathered := [] } k :=
      ⟨h.device, h.isOpen, h.pours⟩
    exact hrest.push hf rfl

theorem write {text : String} (h : s.Pouring C shown i o₀ k₀ (Utf8.encode text ++ todo) k) :
    (s.write text k).Pouring C shown i o₀ k₀ todo := by
  have hfirst (c : Prop) [Decidable c] :
      (if c then s.pushGathered k else ⟨s, k, false⟩ : Stream.Reply _ _).Pouring C shown i o₀ k₀
        (Utf8.encode text ++ todo) := by
    split
    · exact (h.pushGathered hf).1
    · exact ⟨h, nofun⟩
  unfold Buffered.write
  extract_lets bytes r _ s'
  have hr : r.Pouring C shown i o₀ k₀ (bytes ++ todo) := hfirst _
  split
  · next hbroken =>
    exact ⟨⟨hr.stream.device, hr.stream.isOpen, hr.stream.pours.deaf (hr.broken hbroken) _⟩,
      hr.broken⟩
  · have hs' : s'.Pouring C shown i o₀ k₀ todo r.world :=
      ⟨hr.stream.device, hr.stream.isOpen, by simpa [s'] using hr.stream.pours⟩
    split
    · exact (hs'.pushGathered hf).1
    · exact ⟨hs', nofun⟩

theorem flush (h : s.Pouring C shown i o₀ k₀ todo k) :
    (s.flush k).Pouring C shown i o₀ k₀ todo ∧ (s.flush k).stream.gathered = [] ∧
      ((s.flush k).broken = false → (s.flush k).stream.buffer = []) := by
  obtain ⟨hpush, hgathered⟩ := h.pushGathered hf
  unfold Buffered.flush
  dsimp only
  split
  · next hbroken => exact ⟨hpush, hgathered, fun hfine => absurd hbroken (by simp [hfine])⟩
  · obtain ⟨hflush, hgathered', hbuffer⟩ := hpush.stream.flushBuffer hf
    exact ⟨hflush, hgathered'.trans hgathered, hbuffer⟩

/-- When the stream has been closed, everything has been put into the pipe. -/
theorem close (h : s.Pouring C shown i o₀ k₀ [] k) : C.Poured shown i o₀ k₀ (s.close k).world := by
  obtain ⟨hflush, hgathered, -⟩ := h.flush hf
  obtain ⟨hagain, hgathered', hbuffer⟩ := hflush.stream.flushBuffer hf
  unfold Buffered.close
  dsimp only
  generalize (s.flush k).stream.flushBuffer (s.flush k).world = r at hagain hgathered' hbuffer
  rw [hagain.stream.device]
  have hpours := hagain.stream.pours
  rw [hgathered', hgathered, List.append_nil, List.append_nil] at hpours
  refine Chain.Pours.letGo hf ?_
  cases hbroken : r.broken with
  | true => exact hpours.deaf (hagain.broken hbroken) []
  | false => rwa [hbuffer hbroken] at hpours

end Buffered.Pouring

/-- A sink before the pipe behind a stage. When it is broken nobody reads from the pipe. -/
structure Sink.Pouring (C : Chain) (shown : Bytes) (i : Nat) (o₀ : Outlook) (k₀ : Kernel)
    (todo : Bytes) (s : HeldSink) (k : Kernel) : Prop where
  stream : s.stream.Pouring C shown i o₀ k₀ todo k
  broken : s.broken = true → ¬ C.Manned k (i + 1)
  owned : s.owned = true
  closed : s.closed = false
  pending : s.pending = .none

namespace Sink.Pouring

variable {s : HeldSink}

omit hf in
theorem settle {todo' : Bytes} (h : s.Pouring C shown i o₀ k₀ todo' k) (hfine : s.broken = false)
    {r : Stream.Reply (Buffered Handle) Kernel} (hr : r.Pouring C shown i o₀ k₀ todo) :
    (s.settle r).1.Pouring C shown i o₀ k₀ todo (s.settle r).2 where
  stream := hr.stream
  broken hb := hr.broken (by simpa [Sink.settle, hfine] using hb)
  owned := h.owned
  closed := h.closed
  pending := h.pending

theorem write {text : String} (h : s.Pouring C shown i o₀ k₀ (Utf8.encode text ++ todo) k) :
    (s.write text k).1.Pouring C shown i o₀ k₀ todo (s.write text k).2 := by
  unfold Sink.write
  split
  · next hdead =>
    have hgone := h.broken (by simpa [Sink.isDead, h.closed] using hdead)
    exact ⟨⟨h.stream.device, h.stream.isOpen, h.stream.pours.deaf hgone _⟩, h.broken, h.owned,
      h.closed, h.pending⟩
  · next halive =>
    have hfine : s.broken = false := by simp_all [Sink.isDead]
    exact h.settle hfine (h.stream.write hf)

theorem flush (h : s.Pouring C shown i o₀ k₀ todo k) :
    (s.flush k).1.Pouring C shown i o₀ k₀ todo (s.flush k).2 := by
  unfold Sink.flush
  split
  · exact h
  · next halive =>
    have hfine : s.broken = false := by simp_all [Sink.isDead]
    exact h.settle hfine (h.stream.flush hf).1

/-- When the sink has been closed, everything has been put into the pipe. -/
theorem close (h : s.Pouring C shown i o₀ k₀ [] k) : C.Poured shown i o₀ k₀ (s.close k).2 := by
  have hfinish : String.ofList (Utf8.finish s.pending) = "" := by rw [h.pending]; rfl
  have hflush : (Sink.flush { s with pending := .none } k).1.Pouring C shown i o₀ k₀ []
      (Sink.flush { s with pending := .none } k).2 :=
    Sink.Pouring.flush hf ⟨h.stream, h.broken, h.owned, h.closed, rfl⟩
  unfold Sink.close
  rw [if_neg (by simp [h.closed]), hfinish]
  dsimp only
  rw [if_pos (show "".isEmpty = true from rfl)]
  dsimp only
  rw [if_pos hflush.owned]
  exact hflush.stream.close hf

end Sink.Pouring

end Streams

end CommandShell
