import CommandShell.Proofs.Flow.Preparing
import CommandShell.Proofs.Spool.Filing
import CommandShell.Proofs.Spool.Run

/-!
# What the shell writes beside a chain

What a builtin writes for its output goes into the pipe behind it, through a sink, and what it
writes for its errors is shown. For the last stage, if it is a builtin or does not run, the shell
writes to the terminal or to a file, when nothing comes out of the chain; the programs do not
notice.

## Main statements

- `Kernel.Jots`: a system in which something has been written to files.
- `Sink.Jotting.write`, `Sink.Jotting.flush`: operations on a sink before a file.
- `Pipeline.Outlets.Poised.write`: what is written to an outlet of the last stage is shown, or goes
  to a file.
- `Chain.Writing.foldl`, `Chain.Writing.close`: what a builtin writes is put into the pipe behind
  it.
- `Chain.Speaks.foldl`: what is written for the last stage.
-/

/-! ### Writing to files -/

namespace CommandShell

variable {k k' k'' : Kernel} {h : Handle}

namespace Kernel

/-- A system in which the shell has written something to files. -/
structure Jots (k k' : Kernel) : Prop where
  tasks : k'.tasks = k.tasks
  held : k'.held = k.held
  pipes : k'.pipes = k.pipes
  spilled : k'.spilled = k.spilled
  patience : k'.patience = k.patience
  nextPid : k'.nextPid = k.nextPid
  nextNumber : k'.nextNumber = k.nextNumber
  takes : ∀ x, k.Takes x → k'.Takes x
  still : k.Still k'

namespace Jots

theorem refl (k : Kernel) : k.Jots k := ⟨rfl, rfl, rfl, rfl, rfl, rfl, rfl, fun _ => id, .refl k⟩

theorem trans (h : k.Jots k') (g : k'.Jots k'') : k.Jots k'' :=
  ⟨g.tasks.trans h.tasks, g.held.trans h.held, g.pipes.trans h.pipes, g.spilled.trans h.spilled,
    g.patience.trans h.patience, g.nextPid.trans h.nextPid, g.nextNumber.trans h.nextNumber,
    fun x hx => g.takes x (h.takes x hx), h.still.trans g.still⟩

theorem apart (h : k.Jots k') : k.Apart k' :=
  ⟨h.tasks, h.held, fun n => by unfold pipeContent; rw [h.pipes], h.takes⟩

/-- The shell puts something to what it holds open. -/
theorem put (ht : k.Takes h) (bytes : ByteArray) : k.Jots (k.put h bytes).1 ∧
    (k.put h bytes).2 = false := by
  cases h with
  | file n =>
    obtain ⟨-, f, hf, hw⟩ := ht
    have hwrites := writes_file hf hw bytes
    have hsame := SameTasks.writeFile k n bytes
    refine ⟨⟨hwrites.tasks, hwrites.held, hwrites.pipes, ?_, hsame.patience, hsame.nextPid, ?_,
      hwrites.takes, hwrites.still⟩, rfl⟩ <;> simp [Kernel.put, writeFile, hf, setOpened]
  | null | tap => exact ⟨.refl k, rfl⟩
  | _ => exact ht.elim

end Jots

end Kernel

/-- How an operation on a stream into a file ends. -/
structure Stream.Reply.Jotting (h : Handle) (k : Kernel)
    (r : Stream.Reply (Buffered Handle) Kernel) : Prop where
  device : r.stream.device = h
  isOpen : r.stream.isOpen = true
  broken : r.broken = false
  jots : k.Jots r.world

namespace Buffered

variable {s : Buffered Handle} (ht : k.Takes h) (hdevice : s.device = h) (hopen : s.isOpen = true)
include ht hdevice hopen

theorem jotting_flushBuffer : (s.flushBuffer k).Jotting h k ∧ (s.flushBuffer k).stream.buffer = [] ∧
    (s.flushBuffer k).stream.gathered = s.gathered := by
  unfold flushBuffer
  split
  · next hempty => exact ⟨⟨hdevice, hopen, rfl, .refl k⟩, List.isEmpty_iff.mp hempty, rfl⟩
  · obtain ⟨hjots, hbroken⟩ := Kernel.Jots.put ht (pack s.buffer)
    simp only [Device.put, hdevice, hbroken]
    exact ⟨⟨rfl, hopen, rfl, hjots⟩, rfl, trivial⟩

theorem jotting_push (hgathered : s.gathered = []) (bytes : Bytes) :
    (push bytes s k).Jotting h k ∧ (push bytes s k).stream.gathered = [] := by
  obtain ⟨hflush, -, hkept⟩ := jotting_flushBuffer ht hdevice hopen
  unfold push
  generalize s.flushBuffer k = r at hflush hkept
  dsimp only
  split
  · exact ⟨⟨hdevice, hopen, rfl, .refl k⟩, hgathered⟩
  · rw [if_neg (by simp [hflush.broken])]
    split
    · obtain ⟨hjots, hbroken⟩ := Kernel.Jots.put (hflush.jots.takes h ht) (pack bytes)
      simp only [Device.put, hflush.device, hbroken]
      exact ⟨⟨rfl, hflush.isOpen, rfl, hflush.jots.trans hjots⟩, hkept.trans hgathered⟩
    · exact ⟨⟨hflush.device, hflush.isOpen, rfl, hflush.jots⟩, hkept.trans hgathered⟩

theorem jotting_pushGathered : (s.pushGathered k).Jotting h k ∧
    (s.pushGathered k).stream.gathered = [] := by
  unfold pushGathered
  split
  · next hempty => exact ⟨⟨hdevice, hopen, rfl, .refl k⟩, List.isEmpty_iff.mp hempty⟩
  · exact jotting_push (s := { s with gathered := [] }) ht hdevice hopen rfl s.gathered

theorem jotting_write (text : String) : (s.write text k).Jotting h k := by
  have hfirst (c : Prop) [Decidable c] :
      (if c then s.pushGathered k else ⟨s, k, false⟩ : Stream.Reply _ _).Jotting h k := by
    split
    · exact (jotting_pushGathered ht hdevice hopen).1
    · exact ⟨hdevice, hopen, rfl, .refl k⟩
  unfold write
  extract_lets bytes r _ s'
  have hr : r.Jotting h k := hfirst _
  rw [if_neg (by simp [hr.broken])]
  split
  · obtain ⟨hnext, -⟩ := jotting_pushGathered (s := s') (hr.jots.takes h ht) hr.device hr.isOpen
    exact ⟨hnext.device, hnext.isOpen, hnext.broken, hr.jots.trans hnext.jots⟩
  · exact ⟨hr.device, hr.isOpen, rfl, hr.jots⟩

/-- A stream that has been flushed is as it was opened. -/
theorem jotting_flush : (s.flush k).Jotting h k ∧ (s.flush k).stream = { device := h } := by
  obtain ⟨hpush, hgathered⟩ := jotting_pushGathered ht hdevice hopen
  obtain ⟨hflush, hbuffer, hkept⟩ :=
    jotting_flushBuffer (s := (s.pushGathered k).stream) (hpush.jots.takes h ht) hpush.device
      hpush.isOpen
  unfold flush
  dsimp only
  rw [if_neg (by simp [hpush.broken])]
  refine ⟨⟨hflush.device, hflush.isOpen, hflush.broken, hpush.jots.trans hflush.jots⟩, ?_⟩
  have hnone := hkept.trans hgathered
  have hdevice' := hflush.device
  have hopen' := hflush.isOpen
  generalize (s.pushGathered k).stream.flushBuffer (s.pushGathered k).world =
    r at hbuffer hnone hdevice' hopen'
  obtain ⟨⟨device, isOpen, gathered, buffer⟩, world, broken⟩ := r
  simp_all

end Buffered

/-- A sink before something that the shell holds open. -/
structure Sink.Jotting (h : Handle) (s : HeldSink) : Prop where
  device : s.stream.device = h
  isOpen : s.stream.isOpen = true
  owned : s.owned = true
  closed : s.closed = false
  broken : s.broken = false
  pending : s.pending = .none

namespace Sink.Jotting

variable {s : HeldSink}

theorem ofHandle (h : Handle) : Sink.Jotting h (.ofHandle h) := ⟨rfl, rfl, rfl, rfl, rfl, rfl⟩

theorem settle (hs : s.Jotting h) {r : Stream.Reply (Buffered Handle) Kernel} (hr : r.Jotting h k) :
    (s.settle r).1.Jotting h ∧ k.Jots (s.settle r).2 :=
  ⟨⟨hr.device, hr.isOpen, hs.owned,
    hs.closed, by simp [Sink.settle, hs.broken, hr.broken], hs.pending⟩, hr.jots⟩

theorem isDead (hs : s.Jotting h) : s.isDead = false := by simp [Sink.isDead, hs.broken, hs.closed]

theorem write (hs : s.Jotting h) (ht : k.Takes h) (text : String) :
    (s.write text k).1.Jotting h ∧ k.Jots (s.write text k).2 := by
  unfold Sink.write
  rw [if_neg (by simp [hs.isDead])]
  exact hs.settle (Buffered.jotting_write ht hs.device hs.isOpen text)

/-- A sink that has been flushed is as it was opened. -/
theorem flush (hs : s.Jotting h) (ht : k.Takes h) : (s.flush k).1 = .ofHandle h ∧
    k.Jots (s.flush k).2 := by
  obtain ⟨hflush, hstream⟩ := Buffered.jotting_flush ht hs.device hs.isOpen
  obtain ⟨hsettled, hjots⟩ := hs.settle hflush
  unfold Sink.flush
  rw [if_neg (by simp [hs.isDead])]
  refine ⟨?_, hjots⟩
  have hkept : (s.settle (TextStream.flush s.stream k)).1.stream = { device := h } := hstream
  generalize (s.settle (TextStream.flush s.stream k)).1 = s' at hkept hsettled
  obtain ⟨stream, owned, closed, broken, pending⟩ := s'
  obtain ⟨-, -, rfl, rfl, rfl, rfl⟩ := hsettled
  obtain rfl : stream = { device := h } := hkept
  rfl

end Sink.Jotting

/-- A session in which the shell has written something, of which the terminal shows so much for the
output. -/
inductive Session.Voices (s : Session) : Bytes → Session → Prop where
  | nothing : s.Voices [] s
  | shows (c : Channel) (text : String) :
      s.Voices (if c = .out then Utf8.encode text else []) (s.display c text)
  | jots {k : Kernel} (h : s.world.toKernel.Jots k) : s.Voices [] (s.onKernel fun _ => k).absorb

theorem Session.Voices.direct {s s' : Session} {said : Bytes} (h : s.Voices said s') :
    s'.direct = s.direct := by
  cases h with
  | nothing | shows => rfl
  | jots =>
    obtain ⟨_, -, hdirect, -⟩ := (s.onKernel fun _ => _).absorb_eq
    exact hdirect

theorem Session.Voices.apart {s s' : Session} {said : Bytes} (h : s.Voices said s') :
    s.world.toKernel.Apart s'.world.toKernel := by
  cases h with
  | nothing | shows => exact .refl _
  | jots hjots => exact hjots.apart.trans (s.absorb_onKernel _).1

namespace Pipeline

/-- The sinks of the last stage: those of the terminal, and those of the files that it is redirected
to. Nothing waits in the sink of a file but for some channels. -/
structure Outlets.Poised (dirty : Channel → Prop) (s : Session) (o : Outlets) : Prop where
  screens : ∀ c, o.screenSink c = { stream := { channel := c, direct := s.direct } }
  files : ∀ c sink, o.heldSink (.file c) = some sink →
    ∃ h, Sink.Jotting h sink ∧ s.world.toKernel.Takes h ∧ (¬ dirty c → sink = .ofHandle h)

namespace Outlets.Poised

variable {s s' : Session} {o : Outlets} {outlet : Outlet} {said : Bytes}
  {dirty dirty' : Channel → Prop}

theorem mono (ho : o.Poised dirty s) (hd : ∀ c, dirty c → dirty' c) : o.Poised dirty' s where
  screens := ho.screens
  files c sink hs := by
    obtain ⟨h, hjotting, htakes, hclean⟩ := ho.files c sink hs
    exact ⟨h, hjotting, htakes, fun hn => hclean fun hdirty => hn (hd c hdirty)⟩

theorem congr (ho : o.Poised dirty s) (hdirect : s'.direct = s.direct)
    (htakes : ∀ x, s.world.toKernel.Takes x → s'.world.toKernel.Takes x) : o.Poised dirty s' where
  screens c := by rw [hdirect, ho.screens]
  files c sink hs := by
    obtain ⟨h, hjotting, htaken, hclean⟩ := ho.files c sink hs
    exact ⟨h, hjotting, htakes h htaken, hclean⟩

theorem voices (ho : o.Poised dirty s) (hv : s.Voices said s') : o.Poised dirty s' :=
  ho.congr hv.direct hv.apart.takes

/-- A text is shown at once. -/
theorem write_screen (ho : o.Poised dirty s) (c : Channel) (text : String) :
    Outlets.write text (.screen c) o s = (o, s.display c text) := by
  have hsink : (o.screenSink c).write text s.screen =
      (o.screenSink c, s.screen.showText c text) := by
    rw [ho.screens]
    rfl
  unfold Outlets.write Outlets.act
  simp only [hsink]
  cases c <;> rfl

theorem flush_screen (ho : o.Poised dirty s) (c : Channel) :
    Outlets.flush (.screen c) o s = (o, s) := by
  have hsink : (o.screenSink c).flush s.screen = (o.screenSink c, s.screen) := by
    rw [ho.screens]
    rfl
  unfold Outlets.flush Outlets.act
  simp only [hsink]
  cases c <;> rfl

/-- An operation on a sink of a file. -/
theorem act (ho : o.Poised dirty s) (f : SinkAction) {c : Channel}
    (hd : ∀ c', c' ≠ c → dirty c' → dirty' c')
    (hf : ∀ h (k : Kernel) (sink : HeldSink), Sink.Jotting h sink → k.Takes h →
      Sink.Jotting h (f sink k).1 ∧ k.Jots (f sink k).2 ∧
        (¬ dirty' c → (f sink k).1 = .ofHandle h)) :
    (Outlets.act f (.file c) o s).1.Poised dirty' (Outlets.act f (.file c) o s).2 ∧
      s.Voices [] (Outlets.act f (.file c) o s).2 := by
  unfold Outlets.act
  dsimp only
  split
  · next hnone =>
    refine ⟨⟨ho.screens, fun c' sink hs => ?_⟩, .nothing⟩
    obtain ⟨h, hjotting, htakes, hclean⟩ := ho.files c' sink hs
    refine ⟨h, hjotting, htakes, fun hn => hclean fun hdirty => hn (hd c' ?_ hdirty)⟩
    rintro rfl
    simp [hnone] at hs
  · next sink hs =>
    obtain ⟨h, hjotting, htakes, -⟩ := ho.files c sink hs
    obtain ⟨hjotting', hjots, hclean'⟩ := hf h s.world.toKernel sink hjotting htakes
    have hvoices := Session.Voices.jots hjots
    have ho' := ho.voices hvoices
    refine ⟨⟨fun c' => ?_, fun c' sink' hs' => ?_⟩, hvoices⟩
    · rw [screenSink_setHeldSink]
      exact ho'.screens c'
    · by_cases hc : c' = c
      · subst hc
        rw [heldSink_setHeldSink_self] at hs'
        obtain rfl := Option.some.inj hs'
        exact ⟨h, hjotting', hvoices.apart.takes h htakes, hclean'⟩
      · rw [heldSink_setHeldSink_of_ne (by simpa using hc)] at hs'
        obtain ⟨h', hjotting'', htakes', hclean⟩ := ho'.files c' sink' hs'
        exact ⟨h', hjotting'', htakes', fun hn => hclean fun hdirty => hn (hd c' hc hdirty)⟩

/-- A text that is written to an outlet of the last stage. -/
theorem write (ho : o.Poised dirty s) (hn : outlet ≠ .next) (text : String) :
    (Outlets.write text outlet o s).1.Poised (fun c => dirty c ∨ outlet = .file c)
    (Outlets.write text outlet o s).2 ∧
      s.Voices (if outlet = .screen .out then Utf8.encode text else [])
        (Outlets.write text outlet o s).2 := by
  cases outlet with
  | next => exact absurd rfl hn
  | file c =>
    refine ho.act (fun sink w => sink.write text w) (fun _ _ => .inl) fun h k sink hs ht => ?_
    obtain ⟨hjotting, hjots⟩ := hs.write ht text
    exact ⟨hjotting, hjots, fun hclean => absurd (.inr rfl) hclean⟩
  | screen c =>
    have hvoices := Session.Voices.shows (s := s) c text
    rw [ho.write_screen]
    refine ⟨(ho.mono fun _ => .inl).voices hvoices, ?_⟩
    simpa only [Outlet.screen.injEq] using hvoices

/-- An outlet of the last stage is flushed. -/
theorem flush (ho : o.Poised dirty s) (hn : outlet ≠ .next) :
    (Outlets.flush outlet o s).1.Poised (fun c => dirty c ∧ outlet ≠ .file c)
    (Outlets.flush outlet o s).2 ∧
      s.Voices [] (Outlets.flush outlet o s).2 := by
  cases outlet with
  | next => exact absurd rfl hn
  | file c =>
    refine ho.act (fun sink w => sink.flush w) (fun c' hc hdirty => ⟨hdirty, ?_⟩)
      fun h k sink hs ht => ?_
    · simpa using Ne.symm hc
    · obtain ⟨hflushed, hjots⟩ := hs.flush ht
      exact ⟨hflushed ▸ .ofHandle h, hjots, fun _ => hflushed⟩
  | screen c =>
    rw [ho.flush_screen]
    exact ⟨ho.mono fun c' hdirty => ⟨hdirty, by simp⟩, .nothing⟩

end Outlets.Poised

end Pipeline

end CommandShell

/-! ### Writing for a stage -/

namespace CommandShell

open Builtin (Emission)
open Pipeline (Outlets SinkAction)

/-- A sink before a pipe goes on from where it has got to. -/
theorem Sink.Pouring.rebase {C : Chain} {shown todo : Bytes} {i : Nat} {o₀ : Outlook}
    {k₀ k : Kernel} {sink : HeldSink} (h : Sink.Pouring C shown i o₀ k₀ todo sink k) :
      ∃ o, C.Flows shown o k ∧ C.Evolves (· = i) o₀ k₀ o k ∧
      ∀ shown' k', k.Apart k' → C.Flows shown' o k' →
        Sink.Pouring C shown' i o k' todo sink k' := by
  obtain ⟨o, hflows, hevolves, hcoming⟩ := h.stream.pours.flows
  refine ⟨o, hflows, hevolves, fun shown' k' ha hf => ?_⟩
  have hmanned : ¬ C.Manned k (i + 1) → ¬ C.Manned k' (i + 1) :=
    mt (Chain.manned_congr ha.tasks (i + 1)).mp
  exact {
    stream := ⟨h.stream.device, h.stream.isOpen, rfl, rfl, .refl k', o, hf, .refl o k',
      hcoming.imp_right hmanned⟩
    broken := fun hb => hmanned (h.broken hb)
    owned := h.owned
    closed := h.closed
    pending := h.pending }

/-- The sink before a pipe is none of those of the last stage. -/
theorem Pipeline.Outlets.Poised.setNext {dirty : Channel → Prop} {s : Session} {outlets : Outlets}
    (h : outlets.Poised dirty s) (sink : HeldSink) :
    (outlets.setHeldSink .next sink).Poised dirty s where
  screens c := by rw [Outlets.screenSink_setHeldSink, h.screens]
  files c sink' hs := h.files c sink' (by rwa [Outlets.heldSink_setHeldSink_of_ne (by simp)] at hs)

namespace Chain

variable {C : Chain} {before todo todo' : Bytes} {own : Nat → Prop} {i : Nat} {o o' o'' : Outlook}
  {s s' s'' : Session} {x : Outlets × Session}

/-- How a session has gone on in which the programs of a chain are at work. -/
structure Proceeds (C : Chain) (own : Nat → Prop) (o : Outlook) (s : Session) (o' : Outlook)
    (s' : Session) : Prop where
  beside : s.Beside s'
  evolves : C.Evolves own o s.world.toKernel o' s'.world.toKernel
  patience : s'.world.patience = s.world.patience

namespace Proceeds

theorem trans (h : C.Proceeds own o s o' s') (g : C.Proceeds own o' s' o'' s'') :
    C.Proceeds own o s o'' s'' :=
  ⟨h.beside.trans g.beside, h.evolves.trans g.evolves, g.patience.trans h.patience⟩

/-- The system is as it was. -/
theorem of_world (hb : s.Beside s') (hw : s'.world = s.world) : C.Proceeds own o s o s' :=
  ⟨hb, .of_tasks (by rw [hw]), by rw [hw]⟩

theorem refl (o : Outlook) (s : Session) : C.Proceeds own o s o s := .of_world (.refl s) rfl

end Proceeds

/-- The programs have been at work, and what has come out is put on the terminal. -/
theorem Shows.proceeds (h : C.Shows before o s) {k : Kernel}
    (hflows : C.Flows (C.visible o s) o'' k) (hevolves : C.Evolves own o s.world.toKernel o' k)
    (hstill : s.world.toKernel.Still k) (hpatience : k.patience = s.world.patience) :
    C.Shows before o'' (s.onKernel fun _ => k).absorb ∧
      C.Proceeds own o s o' (s.onKernel fun _ => k).absorb ∧
      k.Apart (s.onKernel fun _ => k).absorb.world.toKernel := by
  obtain ⟨hapart, -, hpatience'⟩ := s.absorb_onKernel k
  exact ⟨h.absorb (f := fun _ => k) hflows, ⟨(Session.Beside.onKernel s hstill).trans (.absorb _),
    hevolves.trans (.of_tasks hapart.tasks), hpatience'.trans hpatience⟩, hapart⟩

/-- A session in which the shell writes the output of a stage into the pipe behind it, with its
sinks; so much of it is left. -/
structure Writing (C : Chain) (before : Bytes) (i : Nat) (o : Outlook) (todo : Bytes)
    (x : Outlets × Session) : Prop where
  shows : C.Shows before o x.2
  feeds : C.Feeds i o x.2.world.toKernel
  poised : x.1.Poised (fun _ => False) x.2
  sink : ∃ sink, x.1.next = some sink ∧
    Sink.Pouring C (C.visible o x.2) i o x.2.world.toKernel todo sink x.2.world.toKernel

namespace Writing

/-- The shell does something with the sink before the pipe. -/
theorem act (h : C.Writing before i o todo x) (f : SinkAction)
    (hf : ∀ shown (k : Kernel) (sink : HeldSink), C.Feeds i o k →
      Sink.Pouring C shown i o k todo sink k →
      Sink.Pouring C shown i o k todo' (f sink k).1 (f sink k).2) :
    ∃ o', C.Writing before i o' todo' (Outlets.act f .next x.1 x.2) ∧
      (Outlets.act f .next x.1 x.2).2.world.held = x.2.world.held ∧
      C.Proceeds (· = i) o x.2 o' (Outlets.act f .next x.1 x.2).2 := by
  obtain ⟨sink, hsink, hpouring⟩ := h.sink
  have hheld : x.1.heldSink .next = some sink := hsink
  have hnext := hf _ _ sink h.feeds hpouring
  unfold Outlets.act
  simp only [hheld]
  generalize f sink x.2.world.toKernel = result at hnext
  obtain ⟨sink', k'⟩ := result
  dsimp only at hnext ⊢
  have hpours := hnext.stream.pours
  obtain ⟨o', hflows, hevolves, hrebase⟩ := hnext.rebase
  obtain ⟨hshows, hproceeds, hapart⟩ :=
    h.shows.proceeds hflows hevolves hpours.still hpours.patience
  have hpatience := hproceeds.patience.trans hpours.patience.symm
  have hfeeds := hpours.feeds h.feeds hevolves
  have hpoised := (h.poised.congr hproceeds.beside.direct fun y hy =>
    hapart.takes y (hpours.still.takes (fun n hn => hpours.held ▸ hn) hy)).setNext sink'
  refine ⟨o', ⟨hshows, ⟨hfeeds.stage, hapart.held ▸ hfeeds.writer, ?_, hpatience ▸ hfeeds.patience⟩,
    hpoised, sink', rfl, hrebase _ _ hapart hshows.flows⟩, hapart.held.trans hpours.held, hproceeds⟩
  rw [manned_congr hapart.tasks]
  exact hfeeds.nobody

/-- A text for the output is put into the pipe, as far as it does not wait in the sink. -/
theorem write (text : String) (h : C.Writing before i o (Utf8.encode text ++ todo) x) :
    ∃ o', C.Writing before i o' todo (Outlets.write text .next x.1 x.2) ∧
      (Outlets.write text .next x.1 x.2).2.world.held = x.2.world.held ∧
      C.Proceeds (· = i) o x.2 o' (Outlets.write text .next x.1 x.2).2 :=
  h.act (fun sink w => sink.write text w) fun _ _ _ hfeeds hpouring => hpouring.write hfeeds

/-- A text for the errors is shown. -/
theorem display (h : C.Writing before i o todo x) (text : String) :
    C.Writing before i o todo (Outlets.write text (.screen .err) x.1 x.2) ∧
      (Outlets.write text (.screen .err) x.1 x.2).2.world.held = x.2.world.held ∧
      C.Proceeds (· = i) o x.2 o (Outlets.write text (.screen .err) x.1 x.2).2 := by
  obtain ⟨sink, hsink, hpouring⟩ := h.sink
  have hvoices := Session.Voices.shows (s := x.2) .err text
  have hshows := h.shows.display .err text nofun
  rw [if_neg (by simp), List.append_nil] at hshows
  have hvisible : C.visible o (x.2.display .err text) = C.visible o x.2 :=
    visible_congr hvoices.direct o
  rw [h.poised.write_screen]
  refine ⟨⟨hshows, h.feeds, h.poised.voices hvoices, sink, hsink, ?_⟩, rfl,
    .of_world (.shown x.2 _) rfl⟩
  rw [hvisible]
  exact hpouring

/-- Texts are written, each for its channel. -/
theorem foldl {writes : List Emission}
    (h : C.Writing before i o ((Account.texts writes).on .out) x) :
    ∃ o' y, writes.foldl (fun x e =>
      Outlets.write e.2 (if e.1 = .out then .next else .screen .err) x.1 x.2) x = y ∧
      C.Writing before i o' [] y ∧ y.2.world.held = x.2.world.held ∧
        C.Proceeds (· = i) o x.2 o' y.2 := by
  induction writes generalizing o x with
  | nil => exact ⟨o, x, rfl, h, rfl, .refl o x.2⟩
  | cons e rest ih =>
    obtain ⟨c, text⟩ := e
    rw [Account.texts_cons, Account.on_append, Account.on_of] at h
    cases c with
    | out =>
      rw [if_pos rfl] at h
      obtain ⟨o₁, h₁, hheld₁, hfirst⟩ := h.write text
      obtain ⟨o', y, hy, h', hheld, hrest⟩ := ih h₁
      exact ⟨o', y, hy, h', hheld.trans hheld₁, hfirst.trans hrest⟩
    | err =>
      rw [if_neg (by simp), List.nil_append] at h
      obtain ⟨h₁, hheld₁, hfirst⟩ := h.display text
      obtain ⟨o', y, hy, h', hheld, hrest⟩ := ih h₁
      exact ⟨o', y, hy, h', hheld.trans hheld₁, hfirst.trans hrest⟩

/-- When the sink has been closed the shell does not hold the pipe any more. -/
theorem close (h : C.Writing before i o [] x) :
    ∃ o', C.Shows before o' (Outlets.close .next x.1 x.2).2 ∧
      (Outlets.close .next x.1 x.2).1.Poised (fun _ => False) (Outlets.close .next x.1 x.2).2 ∧
      (Outlets.close .next x.1 x.2).2.world.held = x.2.world.held.erase (.writer (C.base + i)) ∧
      C.Proceeds (· = i) o x.2 o' (Outlets.close .next x.1 x.2).2 := by
  obtain ⟨sink, hsink, hpouring⟩ := h.sink
  have hheld : x.1.heldSink .next = some sink := hsink
  have hpoured := hpouring.close h.feeds
  unfold Outlets.close Outlets.act
  simp only [hheld]
  generalize sink.close x.2.world.toKernel = result at hpoured
  obtain ⟨sink', k'⟩ := result
  dsimp only at hpoured ⊢
  obtain ⟨o', hflows, hevolves⟩ := hpoured.flows
  obtain ⟨hshows, hproceeds, hapart⟩ :=
    h.shows.proceeds hflows hevolves hpoured.still hpoured.patience
  have hkept (n : Nat) (hn : .file n ∈ x.2.world.held) : .file n ∈ k'.held := by
    rw [hpoured.held]
    exact (List.mem_erase_of_ne (by simp)).mpr hn
  have hpoised := h.poised.congr hproceeds.beside.direct fun y hy =>
    hapart.takes y (hpoured.still.takes hkept hy)
  exact ⟨o', hshows, hpoised.setNext sink', hapart.held.trans hpoured.held, hproceeds⟩

end Writing

section Last

variable {said : Bytes}

theorem Proceeds.voices (hv : s.Voices said s') : C.Proceeds own o s o s' := by
  cases hv with
  | nothing => exact .refl o s
  | shows c text => exact .of_world (.shown s _) rfl
  | @jots k hjots =>
    obtain ⟨hapart, -, hpatience⟩ := s.absorb_onKernel k
    exact ⟨(Session.Beside.onKernel s hjots.still).trans (.absorb _),
      .of_tasks (hapart.tasks.trans hjots.tasks), hpatience.trans hjots.patience⟩

/-- The shell writes something for the last stage, when nothing has come out of the chain. -/
theorem Shows.voices (h : C.Shows before o s) (hv : s.Voices said s')
    (hport : C.port = .tap (.screen .out)) (hnone : o.arrived = []) :
      C.Shows (before ++ said) o s' := by
  cases hv with
  | nothing => rwa [List.append_nil]
  | shows c text => exact h.display c text fun _ => hnone
  | @jots k hjots =>
    obtain ⟨bytes, hlanded, harrived⟩ := h.flows.landed
    rw [List.append_nil]
    refine h.absorb (f := fun _ => k) (h.flows.apart hjots.apart o.arrived ⟨bytes, ?_, harrived⟩)
    rw [hport] at hlanded ⊢
    unfold Kernel.Landed Kernel.spilledOn at hlanded ⊢
    rwa [hjots.spilled]

/-- The shell has written something for the last stage since a session, with its sinks. -/
structure Speaks (C : Chain) (own : Nat → Prop) (o : Outlook) (dirty : Channel → Prop)
    (before : Bytes) (x y : Outlets × Session) : Prop where
  shows : C.Shows before o y.2
  poised : y.1.Poised dirty y.2
  apart : x.2.world.toKernel.Apart y.2.world.toKernel
  proceeds : C.Proceeds own o x.2 o y.2

namespace Speaks

variable {y : Outlets × Session} {outlet : Pipeline.Outlet} {dirty dirty' : Channel → Prop}

theorem start (hshows : C.Shows before o x.2) (hpoised : x.1.Poised dirty x.2) :
    C.Speaks own o dirty before x x :=
  ⟨hshows, hpoised, .refl _, .refl o x.2⟩

theorem mono {d : Channel → Prop} (h : C.Speaks own o dirty before x y) (hd : ∀ c, dirty c → d c) :
    C.Speaks own o d before x y :=
  ⟨h.shows, h.poised.mono hd, h.apart, h.proceeds⟩

variable (hport : C.port = .tap (.screen .out)) (hnone : o.arrived = [])
include hport hnone

theorem write (h : C.Speaks own o dirty before x y) (hn : outlet ≠ .next) (text : String) :
    C.Speaks own o (fun c => dirty c ∨ outlet = .file c)
      (before ++ if outlet = .screen .out then Utf8.encode text else []) x
      (Outlets.write text outlet y.1 y.2) := by
  obtain ⟨hpoised, hv⟩ := h.poised.write hn text
  exact ⟨h.shows.voices hv hport hnone, hpoised, h.apart.trans hv.apart,
    h.proceeds.trans (.voices hv)⟩

theorem flush (h : C.Speaks own o dirty before x y) (hn : outlet ≠ .next) :
    C.Speaks own o (fun c => dirty c ∧ outlet ≠ .file c) before x
      (Outlets.flush outlet y.1 y.2) := by
  obtain ⟨hpoised, hv⟩ := h.poised.flush hn
  have hshows := h.shows.voices hv hport hnone
  rw [List.append_nil] at hshows
  exact ⟨hshows, hpoised, h.apart.trans hv.apart, h.proceeds.trans (.voices hv)⟩

/-- Texts are written, each where its channel goes. -/
theorem foldl {route : Channel → Pipeline.Outlet} (hroute : ∀ c, route c ≠ .next)
    (writes : List Emission) (h : C.Speaks own o (fun c => ∃ c', route c' = .file c) before x y) :
    C.Speaks own o (fun c => ∃ c', route c' = .file c)
      (before ++ writes.flatMap fun e => if route e.1 = .screen .out then Utf8.encode e.2 else []) x
      (writes.foldl (fun x e => Outlets.write e.2 (route e.1) x.1 x.2) y) := by
  induction writes generalizing before y with
  | nil => simpa using h
  | cons e rest ih =>
    rw [List.flatMap_cons, ← List.append_assoc]
    exact ih ((h.write hport hnone (hroute e.1) e.2).mono fun c hc =>
      hc.elim id fun heq => ⟨e.1, heq⟩)

end Speaks

end Last

end Chain

end CommandShell
