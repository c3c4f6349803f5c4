import CommandShell.Pipeline.Outlet
import CommandShell.Proofs.Kernel.Request

/-!
# Writing within a scope

Sinks pass what they are given to their stream, and streams to their device. So an operation on an
outlet is a sequence of moves about the device behind it.

## Main statements

- `Buffered.movesFrom_write`, `Buffered.movesFrom_flush`: operations on a stream.
- `Pipeline.SinkAction.Moving`: the operations on sinks that keep what a sink writes to.
- `Pipeline.Outlets.moves_act`: operations on an outlet.
-/

namespace CommandShell

variable {σ : Scope}

/-- An operation on a stream in front of a handle that keeps the handle and makes moves. -/
structure Stream.Reply.MovesFrom (σ : Scope) (h : Handle) (k : Kernel)
    (reply : Stream.Reply (Buffered Handle) Kernel) : Prop where
  moves : Kernel.Moves σ k reply.world
  device : reply.stream.device = h

theorem Stream.Reply.MovesFrom.trans {h : Handle} {k : Kernel}
    {reply reply' : Stream.Reply (Buffered Handle) Kernel} (hr : reply.MovesFrom σ h k)
    (hr' : reply'.MovesFrom σ h reply.world) : reply'.MovesFrom σ h k :=
  ⟨hr.moves.trans hr'.moves, hr'.device⟩

namespace Buffered

variable {h : Handle} (ht : σ.touches h)
include ht

theorem movesFrom_flushBuffer {s : Buffered Handle} (hs : s.device = h) (k : Kernel) :
    (s.flushBuffer k).MovesFrom σ h k := by
  subst hs
  unfold flushBuffer
  split
  · exact ⟨.refl, rfl⟩
  · exact ⟨.put k ht _, rfl⟩

theorem movesFrom_push {s : Buffered Handle} (hs : s.device = h) (bytes : Bytes) (k : Kernel) :
    (push bytes s k).MovesFrom σ h k := by
  have hflush := movesFrom_flushBuffer ht hs k
  unfold push
  generalize s.flushBuffer k = r at hflush
  dsimp only
  split
  · exact ⟨.refl, hs⟩
  · split
    · exact hflush
    · split
      · have ht' : σ.touches r.stream.device := hflush.device ▸ ht
        exact ⟨hflush.moves.trans (Kernel.Moves.put r.world ht' (pack bytes)), hflush.device⟩
      · exact ⟨hflush.moves, hflush.device⟩

theorem movesFrom_pushGathered {s : Buffered Handle} (hs : s.device = h) (k : Kernel) :
    (s.pushGathered k).MovesFrom σ h k := by
  unfold pushGathered
  split
  · exact ⟨.refl, hs⟩
  · exact movesFrom_push ht (s := { s with gathered := [] }) hs s.gathered k

theorem movesFrom_write {s : Buffered Handle} (hs : s.device = h) (text : String) (k : Kernel) :
    (s.write text k).MovesFrom σ h k := by
  have hfirst (c : Prop) [Decidable c] :
      (if c then s.pushGathered k else ⟨s, k, false⟩ : Stream.Reply _ _).MovesFrom σ h k := by
    split
    · exact movesFrom_pushGathered ht hs k
    · exact ⟨.refl, hs⟩
  unfold write
  extract_lets bytes r _ s'
  have hr : r.MovesFrom σ h k := hfirst _
  split
  · exact hr
  · split
    · exact hr.trans (movesFrom_pushGathered ht (s := s') hr.device r.world)
    · exact ⟨hr.moves, hr.device⟩

theorem movesFrom_flush {s : Buffered Handle} (hs : s.device = h) (k : Kernel) :
    (s.flush k).MovesFrom σ h k := by
  have hpush := movesFrom_pushGathered ht hs k
  unfold flush
  dsimp only
  split
  · exact hpush
  · exact hpush.trans (movesFrom_flushBuffer ht hpush.device _)

/-- Closing flushes and then lets go of the handle. -/
theorem close_eq {s : Buffered Handle} (hs : s.device = h) (k : Kernel) :
    ∃ k', Kernel.Moves σ k k' ∧ (s.close k).world = k'.letGo h ∧ (s.close k).stream.device = h := by
  have hflush := movesFrom_flush ht hs k
  have hrest := hflush.trans (movesFrom_flushBuffer ht hflush.device _)
  exact ⟨_, hrest.moves, congrArg (Kernel.letGo _) hrest.device, hrest.device⟩

end Buffered

/-- What the shell holds for a sink. -/
def Sink.gripped (k : HeldSink) : List Handle :=
  if k.owned && !k.closed then [k.stream.device] else []

namespace Pipeline

/-- An operation on sinks that keeps what a sink writes to. -/
structure SinkAction.Moving (σ : Scope) (f : SinkAction) : Prop where
  console : ∀ (s : Sink Console) (screen : Screen), (f s screen).1.stream = s.stream
  moves : ∀ (s : HeldSink) (k : Kernel), σ.touches s.stream.device → Kernel.Moves σ k (f s k).2
  device : ∀ (s : HeldSink) (k : Kernel), σ.touches s.stream.device →
    (f s k).1.stream.device = s.stream.device
  /-- Only an operation that may let go of handles closes a sink. -/
  marks : ¬ σ.grips → ∀ (s : HeldSink) (k : Kernel),
    (f s k).1.owned = s.owned ∧ (f s k).1.closed = s.closed

theorem moving_write (text : String) : SinkAction.Moving σ (fun k w => k.write text w) where
  console s screen := by
    unfold Sink.write
    split <;> rfl
  moves s k ht := by
    unfold Sink.write
    split
    · exact .refl
    · exact (Buffered.movesFrom_write ht rfl text k).moves
  device s k ht := by
    unfold Sink.write
    split
    · rfl
    · exact (Buffered.movesFrom_write ht rfl text k).device
  marks _ s k := by
    unfold Sink.write
    split <;> exact ⟨rfl, rfl⟩

theorem moving_writeBytes (bytes : Bytes) :
    SinkAction.Moving σ (fun k w => k.writeBytes bytes w) where
  console s screen := by
    unfold Sink.writeBytes
    dsimp only
    split
    · rfl
    · exact (moving_write (σ := σ) _).console _ _
  moves s k ht := by
    unfold Sink.writeBytes
    dsimp only
    split
    · exact .refl
    · exact (moving_write _).moves _ _ ht
  device s k ht := by
    unfold Sink.writeBytes
    dsimp only
    split
    · rfl
    · exact (moving_write _).device _ _ ht
  marks hg s k := by
    unfold Sink.writeBytes
    dsimp only
    split
    · exact ⟨rfl, rfl⟩
    · exact (moving_write _).marks hg _ _

theorem moving_flush : SinkAction.Moving σ (fun k w => k.flush w) where
  console s screen := by
    unfold Sink.flush
    split <;> rfl
  moves s k ht := by
    unfold Sink.flush
    split
    · exact .refl
    · exact (Buffered.movesFrom_flush ht rfl k).moves
  device s k ht := by
    unfold Sink.flush
    split
    · rfl
    · exact (Buffered.movesFrom_flush ht rfl k).device
  marks _ s k := by
    unfold Sink.flush
    split <;> exact ⟨rfl, rfl⟩

/-- What holds of a sink and its world through writing, flushing and closing the stream holds after
the sink has been closed; its marks do not matter. -/
theorem close_invariant {τ W : Type} [TextStream τ W] {P : τ → W → Prop}
    (hwrite : ∀ (s : Sink τ) text w, P s.stream w → P (s.write text w).1.stream (s.write text w).2)
    (hflush : ∀ (s : Sink τ) w, P s.stream w → P (s.flush w).1.stream (s.flush w).2)
    (hclose : ∀ (s : Sink τ) w, P s.stream w →
      P (TextStream.close s.stream w).stream (TextStream.close s.stream w).world)
    {s : Sink τ} {w : W} (h : P s.stream w) : P (s.close w).1.stream (s.close w).2 := by
  unfold Sink.close
  split
  · exact h
  · extract_lets tail s₁
    have hwritten : P (if tail.isEmpty then (s₁, w) else s₁.write tail w).1.stream
        (if tail.isEmpty then (s₁, w) else s₁.write tail w).2 := by
      split
      · exact h
      · exact hwrite s₁ tail w h
    generalize (if tail.isEmpty then (s₁, w) else s₁.write tail w) = written at hwritten
    obtain ⟨s₂, w₂⟩ := written
    have hflushed := hflush s₂ w₂ hwritten
    dsimp only at hflushed ⊢
    split
    · exact hclose _ _ hflushed
    · exact hflushed

theorem moving_close (hg : σ.grips) : SinkAction.Moving σ (fun k w => k.close w) := by
  have hheld (s : HeldSink) (k : Kernel) (ht : σ.touches s.stream.device) :
      (s.close k).1.stream.device = s.stream.device ∧ Kernel.Moves σ k (s.close k).2 := by
    refine close_invariant (τ := Buffered Handle)
      (P := fun x w => x.device = s.stream.device ∧ Kernel.Moves σ k w)
      (fun s' text w hx => ?_) (fun s' w hx => ?_) (fun s' w hx => ?_) ⟨rfl, .refl⟩
    · have ht' : σ.touches s'.stream.device := hx.1 ▸ ht
      exact ⟨((moving_write text).device s' w ht').trans hx.1,
        hx.2.trans ((moving_write text).moves s' w ht')⟩
    · have ht' : σ.touches s'.stream.device := hx.1 ▸ ht
      exact ⟨(moving_flush.device s' w ht').trans hx.1, hx.2.trans (moving_flush.moves s' w ht')⟩
    · obtain ⟨k', hmoves, hworld, hdevice⟩ := Buffered.close_eq ht hx.1 w
      refine ⟨hdevice, hx.2.trans (hmoves.trans ?_)⟩
      exact hworld ▸ Kernel.Moves.one (.letGo k' hg ht)
  exact {
    console := fun s screen => close_invariant (P := fun x _ => x = s.stream)
      (fun s' text w hx => ((moving_write (σ := σ) text).console s' w).trans hx)
      (fun s' w hx => ((moving_flush (σ := σ)).console s' w).trans hx) (fun _ _ hx => hx) rfl
    moves := fun s k ht => (hheld s k ht).2
    device := fun s k ht => (hheld s k ht).1
    marks := fun hn => absurd hg hn }

end Pipeline

end CommandShell
