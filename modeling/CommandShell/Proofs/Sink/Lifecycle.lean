import CommandShell.Sink

/-!
# The life of a sink

The stream of a sink is watched: what it is asked for and whether its reader had gone is noted.
Whatever the stream answers and in whatever order a sink is written to, flushed and closed, the sink
notices that the reader has gone and drops the rest, and it closes its stream once if it owns it.

## Main definitions

- `Stream.Watched`: a stream that keeps the calls it has received.
- `Sink.run`: a sequence of operations on a sink.
- `Sink.Moves`: the moves that operations are made of.
- `Sink.Lived`: what the calls tell about a sink after a sequence of operations.
- `Sink.Succeeds`: what a sink keeps from one moment to a later one.

## Main statements

- `Sink.moves_run`: every sequence of operations consists of moves.
- `Sink.lifecycle`: the life of a sink over any stream.
-/

namespace CommandShell

variable {σ W : Type} [TextStream σ W]

/-! ## Streams that are watched -/

namespace Stream

/-- What a stream is asked for. -/
inductive Request where
  | write (text : String)
  | flush
  | close
  deriving DecidableEq, Repr

namespace Request

/-- Ask a stream. -/
def put : Request → σ → W → Reply σ W
  | write text => TextStream.write text
  | flush => TextStream.flush
  | close => TextStream.close

/-- The text that is handed over. -/
@[simp] def text? : Request → Option String
  | write text => some text
  | flush | close => none

end Request

/-- What a stream was asked for, and whether it found that the reader had gone. -/
structure Call where
  request : Request
  broken : Bool
  deriving DecidableEq, Repr

def texts (calls : List Call) : List String := calls.filterMap fun call => call.request.text?

def closings (calls : List Call) : Nat := calls.countP fun call => call.request = .close

theorem closings_eq_zero {calls : List Call} : closings calls = 0 ↔ ∀ call ∈ calls,
    call.request ≠ .close := by
  simp [closings, List.countP_eq_zero]

theorem closings_snoc (calls : List Call) (call : Call) :
    closings (calls ++ [call]) = closings calls + if call.request = .close then 1 else 0 := by
  simp [closings, List.countP_append, List.countP_singleton]

/-- Once the reader has gone a stream is only closed, and after that it is not called. -/
def Orderly (calls : List Call) : Prop :=
  calls.Pairwise fun earlier later =>
    earlier.request ≠ .close ∧ (earlier.broken → later.request = .close)

/-- One more call is orderly if the stream was not closed, and if it only closes a stream whose
reader has gone. -/
theorem Orderly.snoc {calls : List Call} {call : Call} (h : Orderly calls)
    (hopen : closings calls = 0) (hcall : (∃ earlier ∈ calls, earlier.broken) →
      call.request = .close) : Orderly (calls ++ [call]) := by
  refine List.pairwise_append.mpr ⟨h, List.pairwise_singleton ..,
    fun earlier hearlier later hlater => ?_⟩
  rw [List.mem_singleton] at hlater
  subst hlater
  exact ⟨closings_eq_zero.mp hopen earlier hearlier, fun hb => hcall ⟨earlier, hearlier, hb⟩⟩

/-- A stream with the calls it has received. -/
structure Watched (σ : Type) where
  stream : σ
  calls : List Call := []

/-- Ask a stream and note the call. -/
def Watched.put (request : Request) (s : Watched σ) (w : W) : Reply (Watched σ) W :=
  let r := request.put s.stream w
  ⟨⟨r.stream, s.calls ++ [⟨request, r.broken⟩]⟩, r.world, r.broken⟩

instance : TextStream (Watched σ) W where
  write text := Watched.put (.write text)
  flush := Watched.put .flush
  close := Watched.put .close
  hasDescriptor s := TextStream.hasDescriptor s.stream

theorem Request.put_watched (request : Request) (s : Watched σ) (w : W) :
    request.put s w = Watched.put request s w := by
  cases request <;> rfl

end Stream

open CommandShell.Stream

/-! ## Operations -/

namespace Sink

/-- An operation on a sink. -/
inductive Action where
  | write (text : String)
  | writeBytes (bytes : Bytes)
  | flush
  | close
  deriving DecidableEq, Repr

def Action.perform : Action → Sink σ → W → Sink σ × W
  | write text => Sink.write text
  | writeBytes bytes => Sink.writeBytes bytes
  | flush => Sink.flush
  | close => Sink.close

def run (actions : List Action) (s : Sink σ) (w : W) : Sink σ × W :=
  actions.foldl (fun x action => action.perform x.1 x.2) (s, w)

@[simp] theorem run_nil (s : Sink σ) (w : W) : s.run [] w = (s, w) := rfl

@[simp] theorem run_cons (action : Action) (rest : List Action) (s : Sink σ) (w : W) :
    s.run (action :: rest) w = (action.perform s w).1.run rest (action.perform s w).2 := rfl

/-! ## Moves -/

/-- Ask the stream, unless the sink drops what it is given. -/
def ask (request : Request) (s : Sink σ) (w : W) : Sink σ × W :=
  if s.isDead then (s, w) else s.settle (request.put s.stream w)

/-- Write a text unless it is empty. -/
def pass (text : String) (s : Sink σ) (w : W) : Sink σ × W :=
  if text.isEmpty then (s, w) else s.ask (.write text) w

/-- Close the stream if the sink owns it. -/
def release (s : Sink σ) (w : W) : Sink σ × W :=
  let x := if s.owned then s.settle (Request.close.put s.stream w) else (s, w)
  ({ x.1 with closed := true }, x.2)

theorem write_eq (text : String) (s : Sink σ) (w : W) : s.write text w = s.ask (.write text) w :=
  rfl

theorem flush_eq (s : Sink σ) (w : W) : s.flush w = s.ask .flush w := rfl

theorem writeBytes_eq (bytes : Bytes) (s : Sink σ) (w : W) :
    s.writeBytes bytes w =
      { s with pending := (Utf8.feed s.pending bytes).2 }.pass (Utf8.feed s.pending bytes).1 w :=
        rfl

theorem close_of_closed {s : Sink σ} (h : s.closed) (w : W) : s.close w = (s, w) := if_pos h

theorem close_of_open {s : Sink σ} (h : s.closed = false) (w : W) :
    s.close w =
      let passed := { s with pending := .none }.pass (String.ofList (Utf8.finish s.pending)) w
      let flushed := passed.1.ask .flush passed.2
      flushed.1.release flushed.2 := by
  unfold close
  rw [if_neg (by simp [h])]
  rfl

/-- The moves that operations are made of. -/
inductive Moves : Sink σ × W → Sink σ × W → Prop where
  | refl (x : Sink σ × W) : Moves x x
  | pend (s : Sink σ) (w : W) (pending : Utf8.Pending) : Moves (s, w) ({ s with pending }, w)
  | ask (request : Request) (hr : request ≠ .close) (x : Sink σ × W) : Moves x (x.1.ask request x.2)
  | release {x : Sink σ × W} (h : x.1.closed = false) : Moves x (x.1.release x.2)
  | trans {x y z : Sink σ × W} : Moves x y → Moves y z → Moves x z

theorem closed_ask (request : Request) (s : Sink σ) (w : W) :
    (s.ask request w).1.closed = s.closed := by
  unfold ask
  split <;> rfl

theorem closed_pass (text : String) (s : Sink σ) (w : W) : (s.pass text w).1.closed = s.closed := by
  unfold pass
  split
  · rfl
  · exact closed_ask ..

theorem moves_pass (text : String) (s : Sink σ) (w : W) : Moves (s, w) (s.pass text w) := by
  unfold pass
  split
  · exact .refl _
  · exact .ask (.write text) (by simp) (s, w)

theorem moves_close (s : Sink σ) (w : W) : Moves (s, w) (s.close w) := by
  cases h : s.closed with
  | true =>
    rw [close_of_closed h]
    exact .refl _
  | false =>
    rw [close_of_open h]
    extract_lets passed flushed
    have hflushed : flushed.1.closed = false := by
      rw [closed_ask, closed_pass]
      exact h
    exact (Moves.pend s w .none).trans ((moves_pass ..).trans
      ((Moves.ask .flush (by simp) passed).trans (.release hflushed)))

theorem moves_perform (action : Action) (s : Sink σ) (w : W) :
    Moves (s, w) (action.perform s w) := by
  cases action with
  | write text => exact .ask (.write text) (by simp) (s, w)
  | writeBytes bytes => exact (Moves.pend s w _).trans (moves_pass ..)
  | flush => exact .ask .flush (by simp) (s, w)
  | close => exact moves_close s w

theorem moves_run (actions : List Action) (s : Sink σ) (w : W) :
    Moves (s, w) (s.run actions w) := by
  induction actions generalizing s w with
  | nil => exact .refl _
  | cons action rest ih => exact (moves_perform action s w).trans (ih ..)

/-- A sink is closed by the operation that closes it. -/
theorem closed_perform (action : Action) (s : Sink σ) (w : W) :
    (action.perform s w).1.closed = (s.closed || action = .close) := by
  cases action with
  | write text => simp [Action.perform, write_eq, closed_ask]
  | writeBytes bytes => simp [Action.perform, writeBytes_eq, closed_pass]
  | flush => simp [Action.perform, flush_eq, closed_ask]
  | close =>
    cases h : s.closed with
    | true => simp [Action.perform, close_of_closed h, h]
    | false => simp [Action.perform, close_of_open h, release]

theorem closed_run (actions : List Action) (s : Sink σ) (w : W) :
    (s.run actions w).1.closed ↔ s.closed ∨ .close ∈ actions := by
  induction actions generalizing s w with
  | nil => simp
  | cons action rest ih =>
    rw [run_cons, ih, closed_perform, Bool.or_eq_true, decide_eq_true_iff, or_assoc, List.mem_cons,
      @eq_comm _ action]

/-! ## What watching does not change -/

/-- The sink over the stream itself. -/
def unwatched (s : Sink (Watched σ)) : Sink σ :=
  ⟨s.stream.stream, s.owned, s.closed, s.broken, s.pending⟩

/-- What is left if nobody watches. -/
def unwatch (x : Sink (Watched σ) × W) : Sink σ × W := (x.1.unwatched, x.2)

theorem unwatch_settle (request : Request) (x : Sink (Watched σ) × W) :
    unwatch (x.1.settle (request.put x.1.stream x.2)) =
      (unwatch x).1.settle (request.put (unwatch x).1.stream (unwatch x).2) := by
  rw [Request.put_watched]
  rfl

theorem unwatch_ask (request : Request) (x : Sink (Watched σ) × W) :
    unwatch (x.1.ask request x.2) = (unwatch x).1.ask request (unwatch x).2 := by
  unfold ask
  rw [show (unwatch x).1.isDead = x.1.isDead from rfl]
  split
  · rfl
  · exact unwatch_settle request x

theorem unwatch_pass (text : String) (x : Sink (Watched σ) × W) :
    unwatch (x.1.pass text x.2) = (unwatch x).1.pass text (unwatch x).2 := by
  unfold pass
  split
  · rfl
  · exact unwatch_ask ..

theorem unwatch_release (x : Sink (Watched σ) × W) :
    unwatch (x.1.release x.2) = (unwatch x).1.release (unwatch x).2 := by
  unfold release
  rw [show (unwatch x).1.owned = x.1.owned from rfl]
  split
  · exact congrArg (fun y => ({ y.1 with closed := true }, y.2)) (unwatch_settle .close x)
  · rfl

theorem unwatch_close (x : Sink (Watched σ) × W) :
    unwatch (x.1.close x.2) = (unwatch x).1.close (unwatch x).2 := by
  cases h : x.1.closed with
  | true =>
    rw [close_of_closed h, close_of_closed (show (unwatch x).1.closed from h)]
  | false =>
    rw [close_of_open h, close_of_open (show (unwatch x).1.closed = false from h)]
    dsimp only
    rw [unwatch_release, unwatch_ask, unwatch_pass _ (_, _)]
    rfl

theorem unwatch_perform (action : Action) (x : Sink (Watched σ) × W) :
    unwatch (action.perform x.1 x.2) = action.perform (unwatch x).1 (unwatch x).2 := by
  cases action with
  | write text => exact unwatch_ask (.write text) x
  | writeBytes bytes => exact unwatch_pass _ ({ x.1 with pending := _ }, x.2)
  | flush => exact unwatch_ask .flush x
  | close => exact unwatch_close x

/-- A sink goes the same way if its stream is watched. -/
theorem unwatch_run (actions : List Action) (x : Sink (Watched σ) × W) :
    unwatch (x.1.run actions x.2) = (unwatch x).1.run actions (unwatch x).2 := by
  induction actions generalizing x with
  | nil => rfl
  | cons action rest ih => rw [run_cons, run_cons, ih, unwatch_perform]

/-! ## What the calls tell -/

/-- The marks of a sink agree with the calls of its stream. -/
structure Sound (s : Sink (Watched σ)) : Prop where
  broken : s.broken ↔ ∃ call ∈ s.stream.calls, call.broken
  orderly : Orderly s.stream.calls
  closings : closings s.stream.calls = if s.owned && s.closed then 1 else 0

namespace Sound

variable {s : Sink (Watched σ)}

theorem closings_of_open (h : s.Sound) (hc : s.closed = false) :
    Stream.closings s.stream.calls = 0 := by
  simpa [hc] using h.closings

/-- A stream is asked once more for a sink that is open. -/
theorem broken_settle (h : s.Sound) (request : Request) (w : W) :
    (s.settle (request.put s.stream w)).1.broken ↔
      ∃ call ∈ (s.settle (request.put s.stream w)).1.stream.calls, call.broken := by
  rw [Request.put_watched]
  simp [settle, Watched.put, h.broken, or_and_right, exists_or]

theorem ask (h : s.Sound) {request : Request} (hr : request ≠ .close) (w : W) :
    (s.ask request w).1.Sound := by
  unfold Sink.ask
  split
  · exact h
  · next halive =>
    obtain ⟨hbroken, hclosed⟩ : s.broken = false ∧ s.closed = false := by
      simpa [isDead] using halive
    have hnone : ¬ ∃ call ∈ s.stream.calls, call.broken := by
      rw [← h.broken, hbroken]
      exact Bool.false_ne_true
    refine ⟨h.broken_settle request w, ?_, ?_⟩
    · rw [Request.put_watched]
      exact h.orderly.snoc (h.closings_of_open hclosed) fun hb => absurd hb hnone
    · rw [Request.put_watched]
      simp [settle, Watched.put, closings_snoc, h.closings_of_open hclosed, hclosed, hr]

theorem release (h : s.Sound) (hc : s.closed = false) (w : W) : (s.release w).1.Sound := by
  unfold Sink.release
  split
  · next howned =>
    refine ⟨h.broken_settle .close w, ?_, ?_⟩
    · rw [Request.put_watched]
      exact h.orderly.snoc (h.closings_of_open hc) fun _ => rfl
    · rw [Request.put_watched]
      simp [settle, Watched.put, closings_snoc, h.closings_of_open hc, howned]
  · next hborrowed => exact ⟨h.broken, h.orderly, by simpa [hborrowed] using h.closings⟩

end Sound

/-- Every move keeps the marks in agreement with the calls. -/
theorem Moves.sound {x y : Sink (Watched σ) × W} (h : Moves x y) (hx : x.1.Sound) : y.1.Sound := by
  induction h with
  | refl => exact hx
  | pend => exact ⟨hx.broken, hx.orderly, hx.closings⟩
  | ask request hr x => exact hx.ask hr x.2
  | release hopen => exact hx.release hopen _
  | trans _ _ ihxy ihyz => exact ihyz (ihxy hx)

/-- What a sink keeps from one moment to a later one. -/
structure Succeeds (x y : Sink (Watched σ) × W) : Prop where
  owned : y.1.owned = x.1.owned
  broken : x.1.broken → y.1.broken
  closed : x.1.closed → y.1.closed
  /-- A sink that is broken or closed hands no text over. -/
  texts : x.1.isDead → texts y.1.stream.calls = texts x.1.stream.calls
  /-- A sink that is closed does not touch its stream. -/
  stream : x.1.closed → y.1.stream = x.1.stream ∧ y.2 = x.2

namespace Succeeds

variable {x y z : Sink (Watched σ) × W}

section

omit [TextStream σ W]

theorem refl (x : Sink (Watched σ) × W) : Succeeds x x :=
  ⟨rfl, id, id, fun _ => rfl, fun _ => ⟨rfl, rfl⟩⟩

theorem isDead (h : Succeeds x y) (hx : x.1.isDead) : y.1.isDead := by
  simp only [Sink.isDead, Bool.or_eq_true] at hx ⊢
  exact hx.imp h.broken h.closed

theorem trans (h : Succeeds x y) (h' : Succeeds y z) : Succeeds x z where
  owned := h'.owned.trans h.owned
  broken := h'.broken ∘ h.broken
  closed := h'.closed ∘ h.closed
  texts hx := (h'.texts (h.isDead hx)).trans (h.texts hx)
  stream hx := ⟨(h'.stream (h.closed hx)).1.trans (h.stream hx).1,
    (h'.stream (h.closed hx)).2.trans (h.stream hx).2⟩

end

theorem ask (request : Request) (x : Sink (Watched σ) × W) : Succeeds x (x.1.ask request x.2) := by
  unfold Sink.ask
  split
  · exact refl x
  · next halive =>
    have hclosed : ¬ x.1.closed := fun hc => halive (by simp [Sink.isDead, hc])
    exact ⟨rfl, fun hb => by simp [settle,
      hb], id, fun hd => absurd hd halive, fun hc => absurd hc hclosed⟩

theorem release (h : x.1.closed = false) : Succeeds x (x.1.release x.2) := by
  have hopen : ¬ x.1.closed := by simp [h]
  unfold Sink.release
  split
  · refine ⟨rfl, fun hb => by simp [settle,
      hb], fun _ => rfl, fun _ => ?_, fun hc => absurd hc hopen⟩
    rw [Request.put_watched]
    simp [settle, Watched.put, Stream.texts]
  · exact ⟨rfl, id, fun _ => rfl, fun _ => rfl, fun hc => absurd hc hopen⟩

end Succeeds

/-- Every move leads to a later moment. -/
theorem Moves.succeeds {x y : Sink (Watched σ) × W} (h : Moves x y) : Succeeds x y := by
  induction h with
  | refl x => exact .refl x
  | pend => exact ⟨rfl, id, id, fun _ => rfl, fun _ => ⟨rfl, rfl⟩⟩
  | ask request _ x => exact .ask request x
  | release hopen => exact .release hopen
  | trans _ _ ihxy ihyz => exact ihxy.trans ihyz

/-! ## The life of a sink -/

/-- What the calls tell about a sink after a sequence of operations. -/
structure Lived (owned : Bool) (actions : List Action) (s : Sink (Watched σ)) : Prop where
  /-- No failure of the stream gets past the sink: each is noted. -/
  broken : s.broken ↔ ∃ call ∈ s.stream.calls, call.broken
  closed : s.closed ↔ .close ∈ actions
  orderly : Orderly s.stream.calls
  /-- A stream that is owned is closed with the sink, also if its reader has gone; one that is
  borrowed is not. -/
  closings : closings s.stream.calls = if owned ∧ .close ∈ actions then 1 else 0

/-- The life of a sink over any stream, whenever the reader of the stream goes. -/
theorem lifecycle (stream : σ) (owned : Bool) (w : W) (actions more : List Action) :
    let x := run actions { stream := ⟨stream, []⟩, owned } w
    unwatch x = run actions { stream, owned } w ∧ Lived owned actions x.1 ∧
      Succeeds x (x.1.run more x.2) ∧ (x.1.closed → x.1.close x.2 = x) := by
  intro x
  let fresh : Sink (Watched σ) := { stream := ⟨stream, []⟩, owned }
  have hmoves : Moves (fresh, w) x := moves_run ..
  have hsound : x.1.Sound := hmoves.sound ⟨by simp [fresh], .nil, by simp [fresh, closings]⟩
  have hclosed : x.1.closed ↔ .close ∈ actions := by simpa [fresh] using closed_run actions fresh w
  refine ⟨unwatch_run actions (fresh, w), ⟨hsound.broken, hclosed, hsound.orderly, ?_⟩,
    (moves_run more x.1 x.2).succeeds, fun hx => close_of_closed hx x.2⟩
  simp only [hsound.closings, hmoves.succeeds.owned, Bool.and_eq_true, hclosed, fresh]

end Sink

end CommandShell
