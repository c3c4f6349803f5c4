import CommandShell.Proofs.Scope.Outlets
import CommandShell.Proofs.Spool.Kernel

/-!
# Sinks of spools

A sink that leads to a spool gathers text before it is written. What the spool holds and what still
waits for it are together all that the sink has been given; when the sink has been closed, the spool
holds all of it.

## Main statements

- `Buffered.Spooling.write`, `Buffered.Spooling.flush`: operations on a stream to a spool.
- `Sink.Spooling.close`: a spool whose sink has been closed.
- `Sink.Spooling.moves`: what is done to the system around a spool.
-/

namespace CommandShell

/-- A sink that nothing is left in. -/
structure Sink.Idle (k : HeldSink) : Prop where
  gathered : k.stream.gathered = []
  buffer : k.stream.buffer = []
  pending : k.pending = .none

namespace Sink.Idle

variable {k : HeldSink}

theorem flush_eq (h : k.Idle) (w : Kernel) : k.flush w = (k, w) := by
  obtain ⟨⟨device, isOpen, gathered, buffer⟩, owned, closed, broken, pending⟩ := k
  obtain ⟨hgathered, hbuffer, -⟩ := h
  dsimp only at hgathered hbuffer
  subst hgathered hbuffer
  unfold Sink.flush
  split
  · rfl
  · simp [Sink.settle, TextStream.flush, Buffered.flush, Buffered.pushGathered,
      Buffered.flushBuffer]

/-- Closing such a sink does no more than to let go of what it held. -/
theorem close (h : k.Idle) (w : Kernel) :
    (k.close w).1.Idle ∧ ((k.close w).2 = w ∨ (k.close w).2 = w.letGo k.stream.device) := by
  obtain ⟨⟨device, isOpen, gathered, buffer⟩, owned, closed, broken, pending⟩ := k
  obtain ⟨hgathered, hbuffer, hpending⟩ := h
  dsimp only at hgathered hbuffer hpending
  subst hgathered hbuffer hpending
  unfold Sink.close
  split
  · exact ⟨⟨rfl, rfl, rfl⟩, .inl rfl⟩
  · have hflush := fun (b : Bool) =>
      flush_eq (k := ⟨⟨device, isOpen, [], []⟩, owned, closed, b, .none⟩) ⟨rfl, rfl, rfl⟩ w
    have hempty : "".isEmpty = true := by decide
    simp only [Utf8.finish, String.ofList_nil, hempty, if_true, hflush]
    split
    · exact ⟨⟨rfl, rfl, rfl⟩, .inr
        (by simp [Sink.settle, TextStream.close, Buffered.close, Buffered.flush,
        Buffered.pushGathered, Buffered.flushBuffer, Device.drop])⟩
    · exact ⟨⟨rfl, rfl, rfl⟩, .inl rfl⟩

end Sink.Idle

variable {d : Spool} {total : Bytes} {k k' : Kernel}

/-- A stream to a spool: what the spool holds and what waits for it are together what has been
written. -/
structure Buffered.Spooling (d : Spool) (total : Bytes) (s : Buffered Handle)
    (k : Kernel) : Prop where
  device : s.device = .file d.number
  isOpen : s.isOpen = true
  held : .file d.number ∈ k.held
  spools : ∃ content, k.Spools d content ∧ total = content ++ (s.buffer ++ s.gathered)

/-- A stream in which nothing waits. -/
def Buffered.Empty {δ : Type} (s : Buffered δ) : Prop := s.buffer = [] ∧ s.gathered = []

/-- How an operation on a stream to a spool ends. -/
structure Stream.Reply.Spooling (d : Spool) (total : Bytes)
    (r : Stream.Reply (Buffered Handle) Kernel) : Prop where
  stream : r.stream.Spooling d total r.world
  broken : r.broken = false

namespace Buffered.Spooling

variable {s : Buffered Handle}

/-- What is put to the device comes after what the spool holds. -/
theorem put {content : Bytes} (hk : k.Spools d content) (hheld : .file d.number ∈ k.held)
    {x : Handle} (hx : x = .file d.number) (bytes : Bytes) :
    ∃ k', Device.put bytes x k = ⟨.file d.number, k', false⟩ ∧ k'.Spools d (content ++ bytes) ∧
      .file d.number ∈ k'.held := by
  obtain ⟨f, hf⟩ := hk.kept hheld
  obtain ⟨g, hg⟩ : ∃ g, k.opened.lookup d.number = some g :=
    Option.isSome_iff_exists.mp (List.lookup_isSome_iff.mpr ⟨_, hf, by simp⟩)
  have hwritten := hk.writeFile_self hg (pack bytes)
  rw [unpack_pack] at hwritten
  subst hx
  exact ⟨_, rfl, hwritten, (Kernel.SameTasks.writeFile k d.number (pack bytes)).held ▸ hheld⟩

theorem flushBuffer (h : s.Spooling d total k) :
    (s.flushBuffer k).Spooling d total ∧ (s.flushBuffer k).stream.buffer = [] ∧
      (s.flushBuffer k).stream.gathered = s.gathered := by
  obtain ⟨content, hk, htotal⟩ := h.spools
  unfold Buffered.flushBuffer
  split
  · next hempty => exact ⟨⟨h, rfl⟩, List.isEmpty_iff.mp hempty, rfl⟩
  · obtain ⟨k', hput, hk', hheld⟩ := put hk h.held h.device s.buffer
    rw [hput]
    exact ⟨⟨⟨rfl, h.isOpen, hheld, _, hk', by simp [htotal]⟩, rfl⟩, rfl, rfl⟩

theorem push (h : s.Spooling d total k) (hgathered : s.gathered = []) (bytes : Bytes) :
    (Buffered.push bytes s k).Spooling d (total ++ bytes) ∧
    (Buffered.push bytes s k).stream.gathered = [] := by
  obtain ⟨hflush, hbuffer, hgathered'⟩ := h.flushBuffer
  rw [hgathered] at hgathered'
  unfold Buffered.push
  generalize s.flushBuffer k = r at hflush hbuffer hgathered'
  dsimp only
  split
  · obtain ⟨content, hk, htotal⟩ := h.spools
    exact ⟨⟨⟨h.device, h.isOpen, h.held, content, hk, by simp [htotal, hgathered]⟩, rfl⟩, hgathered⟩
  · obtain ⟨content, hk, htotal⟩ := hflush.stream.spools
    rw [hbuffer, hgathered', List.append_nil, List.append_nil] at htotal
    rw [if_neg (by simp [hflush.broken])]
    split
    · obtain ⟨k', hput, hk', hheld⟩ := put hk hflush.stream.held hflush.stream.device bytes
      rw [hput]
      exact ⟨⟨⟨rfl, hflush.stream.isOpen, hheld, _, hk', by simp [htotal, hbuffer, hgathered']⟩,
        rfl⟩, hgathered'⟩
    · exact ⟨⟨⟨hflush.stream.device, hflush.stream.isOpen, hflush.stream.held, content, hk,
        by simp [htotal, hgathered']⟩, rfl⟩, hgathered'⟩

theorem pushGathered (h : s.Spooling d total k) :
    (s.pushGathered k).Spooling d total ∧ (s.pushGathered k).stream.gathered = [] := by
  obtain ⟨content, hk, htotal⟩ := h.spools
  unfold Buffered.pushGathered
  split
  · next hempty => exact ⟨⟨h, rfl⟩, List.isEmpty_iff.mp hempty⟩
  · have hrest : Buffered.Spooling d (content ++ s.buffer) { s with gathered := [] } k :=
      ⟨h.device, h.isOpen, h.held, content, hk, by simp⟩
    obtain ⟨hpush, hgathered⟩ := hrest.push rfl s.gathered
    rw [List.append_assoc, ← htotal] at hpush
    exact ⟨hpush, hgathered⟩

theorem write (h : s.Spooling d total k) (text : String) :
    (s.write text k).Spooling d (total ++ Utf8.encode text) := by
  have hfirst (c : Prop) [Decidable c] :
      (if c then s.pushGathered k else ⟨s, k, false⟩ : Stream.Reply _ _).Spooling d total := by
    split
    · exact h.pushGathered.1
    · exact ⟨h, rfl⟩
  unfold Buffered.write
  extract_lets bytes r _ s'
  have hr : r.Spooling d total := hfirst _
  have hs' : s'.Spooling d (total ++ bytes) r.world := by
    obtain ⟨content, hk, htotal⟩ := hr.stream.spools
    refine ⟨hr.stream.device, hr.stream.isOpen, hr.stream.held, content, hk, ?_⟩
    rw [htotal, List.append_assoc, List.append_assoc]
  rw [if_neg (by simp [hr.broken])]
  split
  · exact hs'.pushGathered.1
  · exact ⟨hs', rfl⟩

theorem flush (h : s.Spooling d total k) :
    (s.flush k).Spooling d total ∧ (s.flush k).stream.Empty := by
  obtain ⟨hpush, hgathered⟩ := h.pushGathered
  obtain ⟨hflush, hbuffer, hgathered'⟩ := hpush.stream.flushBuffer
  unfold Buffered.flush
  rw [if_neg (by simp [hpush.broken])]
  exact ⟨hflush, hbuffer, hgathered'.trans hgathered⟩

/-- When the stream has been closed the spool holds all that has been written. -/
theorem close (h : s.Spooling d total k) : (s.close k).world.Spools d total := by
  obtain ⟨hflush, hempty⟩ := h.flush
  obtain ⟨hagain, hbuffer, hgathered⟩ := hflush.stream.flushBuffer
  obtain ⟨content, hk, htotal⟩ := hagain.stream.spools
  rw [hbuffer, hgathered, hempty.2, List.append_nil, List.append_nil] at htotal
  subst htotal
  exact hk.letGo _

/-- What is done to the system around a spool, if nothing waits for it or no task has it. -/
theorem moves (h : s.Spooling d total k) (hs : d.alone ∨ s.Empty)
    (hm : Kernel.Moves (.around d) k k') :
    ∃ bytes, s.Spooling d (total ++ bytes) k' ∧ (d.alone → bytes = []) ∧
      Kernel.Course d.number d.place k bytes k' := by
  obtain ⟨content, hk, htotal⟩ := h.spools
  obtain ⟨bytes, hk', halone, hcourse⟩ := hk.moves hm
  have hheld : .file d.number ∈ k'.held :=
    hm.mem_held (fun ht : (Scope.around d).touches _ => (hk.asides _ (ht _ rfl)).2 rfl) h.held
  refine ⟨bytes, ⟨h.device, h.isOpen, hheld, _, hk', ?_⟩, halone, hcourse⟩
  rcases hs with ha | ⟨hbuffer, hgathered⟩
  · simp [htotal, halone ha]
  · simp [htotal, hbuffer, hgathered]

end Buffered.Spooling

/-- A sink that leads to a spool and has been given some bytes. -/
structure Sink.Spooling (d : Spool) (total : Bytes) (s : HeldSink) (k : Kernel) : Prop where
  stream : s.stream.Spooling d total k
  owned : s.owned = true
  closed : s.closed = false
  broken : s.broken = false
  pending : s.pending = .none

namespace Sink.Spooling

variable {s : HeldSink}

theorem isDead (h : s.Spooling d total k) : s.isDead = false := by
  simp [Sink.isDead, h.broken, h.closed]

theorem settle (h : s.Spooling d total k) {total' : Bytes}
    {r : Stream.Reply (Buffered Handle) Kernel} (hr : r.Spooling d total') :
    (s.settle r).1.Spooling d total' (s.settle r).2 :=
  ⟨hr.stream, h.owned, h.closed, by simp [Sink.settle, h.broken, hr.broken], h.pending⟩

theorem write (h : s.Spooling d total k) (text : String) :
    (s.write text k).1.Spooling d (total ++ Utf8.encode text) (s.write text k).2 := by
  unfold Sink.write
  rw [if_neg (by simp [h.isDead])]
  exact h.settle (h.stream.write text)

theorem flush (h : s.Spooling d total k) :
    (s.flush k).1.Spooling d total (s.flush k).2 ∧ (s.flush k).1.stream.Empty := by
  unfold Sink.flush
  rw [if_neg (by simp [h.isDead])]
  exact ⟨h.settle h.stream.flush.1, h.stream.flush.2⟩

/-- Such a sink is idle when nothing waits in it. -/
theorem idle (h : s.Spooling d total k) (he : s.stream.Empty) : s.Idle := ⟨he.2, he.1, h.pending⟩

/-- When the sink has been closed the spool holds all that it has been given. -/
theorem close (h : s.Spooling d total k) : (s.close k).2.Spools d total := by
  unfold Sink.close
  rw [if_neg (by simp [h.closed])]
  have hfinish : String.ofList (Utf8.finish s.pending) = "" := by rw [h.pending]; rfl
  rw [hfinish]
  dsimp only
  have hflush : (Sink.flush { s with pending := .none } k).1.Spooling d total
      (Sink.flush { s with pending := .none } k).2 := by
    refine (Sink.Spooling.flush ?_).1
    exact ⟨h.stream, h.owned, h.closed, h.broken, rfl⟩
  rw [if_pos (show "".isEmpty = true from rfl)]
  dsimp only
  rw [if_pos hflush.owned]
  exact hflush.stream.close

end Sink.Spooling

end CommandShell
