import CommandShell.Proofs.Backdrop.Session
import CommandShell.Proofs.Flow.Feed
import CommandShell.Proofs.Flow.Reference
import CommandShell.Proofs.Scope.Standing
import CommandShell.Proofs.Pump
import CommandShell.Proofs.Terminal

/-!
# What a terminal shows of a chain

A program that ends a chain may write to a real terminal by itself. What it has written there is
shown as soon as the shell has done something with the system, so whenever the shell goes on, all
that has come out has been shown. Nothing else is written for the output of the line meanwhile.

What programs write to streams the shell reads in chunks, which it writes to where the streams lead.
However the chunks are cut and mixed, what comes out of a stream arrives in order; the sinks of the
terminal show the characters that are complete.

## Main statements

- `Chain.Shows`: a session in which a chain is at work, and its terminal has shown what has come
  out.
- `Chain.Shows.absorb`: what has come out is put on the terminal.
- `Chain.Shows.display`, `Chain.Shows.edited`: what the shell and its builtins do beside the chain.
- `Reader.bytesTo_chunks`: the chunks for a sink are together what came out of its stream.
- `Pump.drain_all`: the pump writes all chunks if every stream has ended.
- `Outlets.Fed.pourAll`: what a terminal shows of the chunks.
-/

/-! ### What comes out by itself -/

namespace CommandShell

namespace Screen

/-- The bytes of what commands have written on a channel. -/
def bytesOn (screen : Screen) (c : Channel) : Bytes := (screen.written.on c).bytes

theorem bytesOn_append (screen screen' : Screen) (c : Channel) :
    bytesOn (screen ++ screen') c = screen.bytesOn c ++ bytesOn screen' c := by
  simp [bytesOn, written_append, on, bytes]

theorem bytesOn_showText (screen : Screen) (c c' : Channel) (text : String) :
    (screen.showText c text).bytesOn c' = screen.bytesOn c' ++ if c = c' then Utf8.encode text
      else [] := by
  rw [showText, bytesOn_append]
  by_cases hc : c = c' <;> simp [bytesOn, written, on, bytes, Chunk.toBytes, hc]

/-- Echoes are written by no command. -/
theorem bytesOn_of_echo {screen : Screen} (h : ∀ e ∈ screen, e.echo = true) (c : Channel) :
    screen.bytesOn c = [] := by
  have hnone : screen.written = [] := List.filter_eq_nil_iff.mpr fun e he => by simp [h e he]
  simp [bytesOn, hnone, on, bytes]

end Screen

namespace Kernel

variable {k k' k'' : Kernel}

/-- A system in which something has happened apart from its tasks and pipes. -/
structure Apart (k k' : Kernel) : Prop where
  tasks : k'.tasks = k.tasks
  held : k'.held = k.held
  pipes : ∀ n, k'.pipeContent n = k.pipeContent n
  takes : ∀ x, k.Takes x → k'.Takes x

theorem Apart.refl (k : Kernel) : k.Apart k := ⟨rfl, rfl, fun _ => rfl, fun _ => id⟩

theorem Apart.trans (h : k.Apart k') (g : k'.Apart k'') : k.Apart k'' :=
  ⟨g.tasks.trans h.tasks, g.held.trans h.held, fun n => (g.pipes n).trans (h.pipes n),
    fun x hx => g.takes x (h.takes x hx)⟩

theorem Apart.of_eq (htasks : k'.tasks = k.tasks) (hheld : k'.held = k.held)
    (hopened : k'.opened = k.opened) (hpipes : k'.pipes = k.pipes) : k.Apart k' := by
  refine ⟨htasks, hheld, fun n => ?_, fun _ hx => hx.congr hheld hopened⟩
  unfold pipeContent
  rw [hpipes]

end Kernel

namespace Session

/-- What has come out of the screen is shown, and nothing is left of it. -/
theorem absorb_eq (s : Session) :
    ∃ spilled, s.absorb.world.toKernel = { s.world.toKernel with spilled } ∧
    s.absorb.direct = s.direct ∧
    (s.direct = false → s.absorb = s) ∧
    (s.direct = true → s.absorb.screen.bytesOn .out = s.screen.bytesOn .out ++
      s.world.spilledOn (.screen .out) ∧ s.absorb.world.spilledOn (.screen .out) = []) ∧
    ∀ n, s.absorb.world.spilledOn (.stream n) = s.world.spilledOn (.stream n) := by
  unfold absorb
  split
  · next hshown =>
    obtain ⟨hdirect, -⟩ := Bool.and_eq_true_iff.mp hshown
    refine ⟨_, rfl, rfl, fun hmemory => absurd hdirect (by simp [hmemory]), fun _ => ⟨?_, ?_⟩,
      fun n => ?_⟩
    · rw [Screen.bytesOn_append]
      refine congrArg _ ?_
      unfold Kernel.spilledOn
      generalize s.world.spilled.reverse = spilled
      induction spilled with
      | nil => rfl
      | cons spill rest ih =>
        obtain ⟨tap, time, bytes⟩ := spill
        rcases tap with (_ | _) | n <;>
          simpa [List.filterMap_cons, shownOf, Screen.bytesOn, Screen.written, Screen.on,
            Screen.bytes, Chunk.toBytes] using ih
    · unfold Kernel.spilledOn
      simp only [onKernel, List.flatMap_eq_nil_iff, List.mem_filter, List.mem_reverse,
        decide_eq_true_eq]
      rintro ⟨tap, time, bytes⟩ ⟨⟨-, hkept⟩, rfl⟩
      simp [shownOf] at hkept
    · unfold Kernel.spilledOn
      simp only [onKernel, ← List.filter_reverse, List.filter_filter]
      refine congrArg (List.flatMap _) (List.filter_congr fun spill _ => ?_)
      obtain ⟨tap, time, bytes⟩ := spill
      rcases tap with c | m <;> simp [shownOf]
  · next hshown =>
    refine ⟨s.world.spilled, rfl, rfl, fun _ => rfl, fun hdirect => ?_, fun _ => rfl⟩
    have hnone : s.world.spilled = [] := by simpa [hdirect] using hshown
    simp [Kernel.spilledOn, hnone]

theorem absorb_apart (s : Session) : s.world.toKernel.Apart s.absorb.world.toKernel := by
  obtain ⟨spilled, hkernel, -⟩ := s.absorb_eq
  rw [hkernel]
  exact .of_eq rfl rfl rfl rfl

/-- Something has happened in the system, and what has come out of it has been shown. -/
theorem absorb_onKernel (s : Session) (k : Kernel) :
    k.Apart (s.onKernel fun _ => k).absorb.world.toKernel ∧
    (s.onKernel fun _ => k).absorb.direct = s.direct ∧
    (s.onKernel fun _ => k).absorb.world.patience = k.patience := by
  obtain ⟨spilled, hkernel, hdirect, -⟩ := (s.onKernel fun _ => k).absorb_eq
  exact ⟨(s.onKernel fun _ => k).absorb_apart, hdirect,
    (congrArg Kernel.patience hkernel).trans rfl⟩

theorem bytesOn_note (s : Session) (level : Log.Level) (source message : String) (pid : Option Nat)
    (c : Channel) : (s.note level source message pid).screen.bytesOn c = s.screen.bytesOn c := by
  obtain ⟨shown, hecho, hscreen⟩ := (Session.Edited.note s level source message pid).screen
  rw [hscreen, Screen.bytesOn_append, Screen.bytesOn_of_echo hecho, List.append_nil]

end Session

namespace Chain

variable {C : Chain} {before shown shown' : Bytes} {own : Nat → Prop} {o o' : Outlook}
  {k k' : Kernel} {s s' : Session}

/-- What happens apart from the tasks and the pipes makes no difference to a chain but for what has
come to its port. -/
theorem Flows.apart (h : C.Flows shown o k) (ha : k.Apart k') (arrived : Bytes)
    (hlanded : ∃ bytes, k'.Landed C.port bytes ∧ arrived = shown' ++ bytes) :
    C.Flows shown' { o with arrived } k' where
  tasks t ht := by
    obtain ⟨i, err, hw⟩ | hc := h.tasks t (ha.tasks ▸ ht)
    · refine .inl ⟨i, err, hw.mans, hw.stage, ha.takes _ hw.takes, hw.merged, hw.apart, ?_⟩
      have hsupply : C.supply { o with arrived } k' i = C.supply o k i := supply_congr ha.pipes o i
      rw [hsupply]
      exact hw.returns
    · exact .inr hc
  pids := ha.tasks ▸ h.pids
  seats := ha.tasks ▸ h.seats
  reading i := ha.held ▸ h.reading i
  dry i hi hn hheld hm := by
    rw [manned_congr ha.tasks] at hn hm
    exact h.dry i hi hn (ha.held ▸ hheld) hm
  done i hi hn := by
    rw [manned_congr ha.tasks] at hn
    exact h.done i hi hn
  port := ha.takes _ h.port
  landed := hlanded

theorem Evolves.of_tasks (htasks : k'.tasks = k.tasks) : C.Evolves own o k o k' :=
  ⟨fun t ht _ _ hm => ⟨t, htasks ▸ ht, rfl, hm⟩, fun _ _ _ => rfl, ⟨[], by simp, fun _ _ _ => rfl⟩,
    Nat.le_refl _⟩

/-- The chain ends on a terminal that programs write to by themselves. -/
def Live (C : Chain) (s : Session) : Prop := C.port = .tap (.screen .out) ∧ s.direct = true

instance (C : Chain) (s : Session) : Decidable (C.Live s) := inferInstanceAs (Decidable (_ ∧ _))

/-- What the terminal has shown of what has come out of the chain: all of it, if it comes out
there. -/
def visible (C : Chain) (o : Outlook) (s : Session) : Bytes := if C.Live s then o.arrived else []

theorem visible_of_live (h : C.Live s) (o : Outlook) : C.visible o s = o.arrived := if_pos h

theorem visible_of_not_live (h : ¬ C.Live s) (o : Outlook) : C.visible o s = [] := if_neg h

theorem live_congr (h : s'.direct = s.direct) : C.Live s' ↔ C.Live s := by rw [Live, Live, h]

theorem visible_congr (h : s'.direct = s.direct) (o : Outlook) :
    C.visible o s' = C.visible o s := by
  simp only [visible, live_congr h]

/-- A session in which the programs of a chain are at work, where the terminal has shown what has
come out of the chain behind what was written there before. -/
structure Shows (C : Chain) (before : Bytes) (o : Outlook) (s : Session) : Prop where
  flows : C.Flows (C.visible o s) o s.world.toKernel
  aside : C.port ≠ .tap (.screen .err)
  screen : C.Live s ∨ s.direct = false → s.screen.bytesOn .out = before ++ C.visible o s

namespace Shows

/-- The shell has done something with the system, and puts what has come out on the terminal. -/
theorem absorb (h : C.Shows before o s) {f : Kernel → Kernel}
    (hflows : C.Flows (C.visible o s) o' (f s.world.toKernel)) :
      C.Shows before o' (s.onKernel f).absorb := by
  obtain ⟨spilled, -, hdirect, hmemory, hlive, hstreams⟩ := (s.onKernel f).absorb_eq
  have hsame : (s.onKernel f).absorb.direct = s.direct := hdirect
  have hapart := (s.onKernel f).absorb_apart
  obtain ⟨bytes, hlanded, harrived⟩ := hflows.landed
  by_cases hl : C.Live s
  · obtain ⟨hscreen, hnone⟩ := hlive hl.2
    rw [visible_of_live hl] at hflows harrived
    have hspilled : (f s.world.toKernel).spilledOn (.screen .out) = bytes := by
      rw [hl.1] at hlanded
      exact hlanded
    refine ⟨?_, h.aside, fun _ => ?_⟩ <;> rw [visible_congr hsame, visible_of_live hl]
    · exact hflows.apart hapart o'.arrived ⟨[], by rw [hl.1]; exact hnone, (List.append_nil _).symm⟩
    · have hbefore := h.screen (.inl hl)
      rw [visible_of_live hl] at hbefore
      rw [hscreen, harrived, ← List.append_assoc, ← hbefore]
      exact congrArg _ hspilled
  · rw [visible_of_not_live hl] at hflows harrived
    have hlanded' : (s.onKernel f).absorb.world.Landed C.port bytes := by
      cases hd : s.direct with
      | false =>
        rw [hmemory hd]
        exact hlanded
      | true =>
        have haside := h.aside
        have hout : C.port ≠ .tap (.screen .out) := fun heq => hl ⟨heq, hd⟩
        obtain ⟨spilled', hkernel, -⟩ := (s.onKernel f).absorb_eq
        cases hport : C.port with
        | nowhere => trivial
        | file =>
          rw [hkernel]
          rw [hport] at hlanded
          exact hlanded
        | tap t =>
          rw [hport] at hlanded haside hout
          rcases t with (_ | _) | n
          · exact absurd rfl hout
          · exact absurd rfl haside
          · exact (hstreams n).trans hlanded
    refine ⟨?_, h.aside, fun hor => ?_⟩ <;> rw [visible_congr hsame, visible_of_not_live hl]
    · exact hflows.apart hapart o'.arrived ⟨bytes, hlanded', harrived⟩
    · rw [live_congr hsame, hsame] at hor
      have hd := hor.resolve_left hl
      have hbefore := h.screen (.inr hd)
      rw [visible_of_not_live hl] at hbefore
      rw [hmemory hd]
      exact hbefore

/-- A session with the same system whose terminal has shown the same. -/
theorem congr (h : C.Shows before o s) (hkernel : s'.world.toKernel = s.world.toKernel)
    (hdirect : s'.direct = s.direct) (hscreen : s'.screen.bytesOn .out = s.screen.bytesOn .out) :
      C.Shows before o s' := by
  refine ⟨?_, h.aside, fun hor => ?_⟩ <;> rw [visible_congr hdirect]
  · rw [hkernel]
    exact h.flows
  · rw [live_congr hdirect, hdirect] at hor
    rw [hscreen]
    exact h.screen hor

theorem note (h : C.Shows before o s) (level : Log.Level) (source message : String)
    (pid : Option Nat) : C.Shows before o (s.note level source message pid) := by
  refine h.congr (by rw [Session.world_note]) ?_ (s.bytesOn_note ..)
  exact (Session.Edited.note s level source message pid).direct

/-- The shell shows a text. If it is meant for the output, nothing has come out of the chain. -/
theorem display (h : C.Shows before o s) (c : Channel) (text : String)
    (hnone : c = .out → o.arrived = []) :
    C.Shows (before ++ if c = .out then Utf8.encode text else []) o (s.display c text) := by
  have hdirect : (s.display c text).direct = s.direct := rfl
  refine ⟨?_, h.aside, fun hor => ?_⟩ <;> rw [visible_congr hdirect]
  · exact h.flows
  · rw [live_congr hdirect, hdirect] at hor
    have hbefore := h.screen hor
    change (s.screen.showText c text).bytesOn .out = _
    rw [Screen.bytesOn_showText, hbefore]
    by_cases hc : c = .out
    · have hshown : C.visible o s = [] := by
        unfold visible
        rw [hnone hc]
        exact ite_self _
      simp [hc, hshown]
    · simp [hc]

/-- A builtin has changed a session; a file that the chain ends in is as it was. -/
theorem edited (h : C.Shows before o s) (he : s.Edited s')
    (hfiles : ∀ n place executable, C.port = .file n place executable →
      s'.world.files.get? place = s.world.files.get? place) : C.Shows before o s' := by
  obtain ⟨files, hworld⟩ := he.world
  obtain ⟨added, hecho, hscreen⟩ := he.screen
  have hbytes : s'.screen.bytesOn .out = s.screen.bytesOn .out := by
    rw [hscreen, Screen.bytesOn_append, Screen.bytesOn_of_echo hecho, List.append_nil]
  have hkernel : s'.world.toKernel = { s.world.toKernel with files } := by rw [hworld]
  have hsame : s'.world.files = files := by rw [hworld]
  obtain ⟨bytes, hlanded, harrived⟩ := h.flows.landed
  refine ⟨?_, h.aside, fun hor => ?_⟩ <;> rw [visible_congr he.direct]
  · rw [hkernel]
    have hapart : s.world.toKernel.Apart { s.world.toKernel with files } := .of_eq rfl rfl rfl rfl
    refine h.flows.apart hapart o.arrived ⟨bytes, ?_, harrived⟩
    cases hport : C.port with
    | nowhere => trivial
    | tap t =>
      rw [hport] at hlanded
      exact hlanded
    | file n place executable =>
      rw [hport] at hlanded
      refine ⟨?_, hlanded.2⟩
      rw [← hlanded.1, ← hfiles n place executable hport, hsame]
  · rw [live_congr he.direct, he.direct] at hor
    rw [hbytes]
    exact h.screen hor

end Shows

end Chain

end CommandShell

/-! ### What the shell reads -/

namespace CommandShell

namespace Pipeline.Reader

variable {κ : Type}

section Chunks

variable [DecidableEq κ]

/-- The bytes that are for a sink. -/
def bytesTo (sink : κ) (chunks : List (κ × Bytes)) : Bytes :=
  (chunks.filter fun x => x.1 = sink).flatMap Prod.snd

@[simp] theorem bytesTo_nil (sink : κ) : bytesTo sink [] = [] := rfl

theorem bytesTo_append (sink : κ) (chunks more : List (κ × Bytes)) :
    bytesTo sink (chunks ++ more) = bytesTo sink chunks ++ bytesTo sink more := by
  simp [bytesTo]

theorem bytesTo_cons (sink : κ) (x : κ × Bytes) (rest : List (κ × Bytes)) :
    bytesTo sink (x :: rest) = (if x.1 = sink then x.2 else []) ++ bytesTo sink rest := by
  by_cases h : x.1 = sink <;> simp [bytesTo, h]

end Chunks

variable {sink : κ} {t : Tap}

/-- Readers that are about to read, at most one of each stream; the one of a stream reads for a
sink, and no other one does. -/
structure Awake (sink : κ) (t : Tap) (waking : List (Waking κ)) : Prop where
  sinks : ∀ w ∈ waking, w.sink = sink ↔ w.tap = t
  taps : (waking.map Waking.tap).Nodup

namespace Awake

variable {waking : List (Waking κ)}

theorem sublist {waking' : List (Waking κ)} (h : Awake sink t waking)
    (hs : waking'.Sublist waking) : Awake sink t waking' :=
  ⟨fun w hw => h.sinks w (hs.mem hw), h.taps.sublist (hs.map _)⟩

theorem taps_receive (sink : κ) (spill : Spill) (waking : List (Waking κ)) :
    (receive sink spill waking).map Waking.tap =
      if spill.tap ∈ waking.map Waking.tap then waking.map Waking.tap
        else waking.map Waking.tap ++ [spill.tap] := by
  induction waking with
  | nil => rfl
  | cons w rest ih =>
    unfold receive
    by_cases hw : w.tap = spill.tap
    · simp [hw]
    · have hne : spill.tap ≠ w.tap := Ne.symm hw
      rw [if_neg hw, List.map_cons, ih, List.map_cons]
      by_cases hmem : spill.tap ∈ rest.map Waking.tap
      · rw [if_pos hmem, if_pos (List.mem_cons_of_mem _ hmem)]
      · rw [if_neg hmem, if_neg (List.not_mem_cons_of_ne_of_not_mem hne hmem), List.cons_append]

theorem mem_receive {sink : κ} {spill : Spill} {waking : List (Waking κ)} {w : Waking κ}
    (hw : w ∈ receive sink spill waking) :
    (w.sink = sink ∧ w.tap = spill.tap) ∨ ∃ v ∈ waking, v.sink = w.sink ∧ v.tap = w.tap := by
  induction waking with
  | nil =>
    obtain rfl := List.mem_singleton.mp hw
    exact .inl ⟨rfl, rfl⟩
  | cons v rest ih =>
    unfold receive at hw
    split at hw
    · rcases List.mem_cons.mp hw with rfl | hw
      · exact .inr ⟨v, List.mem_cons_self, rfl, rfl⟩
      · exact .inr ⟨w, List.mem_cons_of_mem v hw, rfl, rfl⟩
    · rcases List.mem_cons.mp hw with rfl | hw
      · exact .inr ⟨w, List.mem_cons_self, rfl, rfl⟩
      · exact (ih hw).imp_right fun ⟨u, hu, heq⟩ => ⟨u, List.mem_cons_of_mem v hu, heq⟩

/-- Something comes out of a stream. -/
theorem receive (h : Awake sink t waking) {sink' : κ} {spill : Spill}
    (hs : sink' = sink ↔ spill.tap = t) : Awake sink t (Reader.receive sink' spill waking) where
  sinks w hw := by
    obtain ⟨hsink, htap⟩ | ⟨v, hv, hsink, htap⟩ := mem_receive hw
    · rw [hsink, htap, hs]
    · rw [← hsink, ← htap, h.sinks v hv]
  taps := by
    rw [taps_receive]
    split
    · exact h.taps
    · next hnew => exact List.nodup_append.mpr ⟨h.taps, List.nodup_singleton _, fun a ha b hb heq =>
        hnew (List.mem_singleton.mp hb ▸ heq ▸ ha)⟩

variable [DecidableEq κ]

/-- What is there to read for the sink gets longer if it comes out of the sink's stream. -/
theorem bytesTo_receive (h : Awake sink t waking) {sink' : κ} {spill : Spill}
    (hs : sink' = sink ↔ spill.tap = t) :
    bytesTo sink ((Reader.receive sink' spill waking).map Waking.chunk) =
      bytesTo sink (waking.map Waking.chunk) ++ if sink' = sink then unpack spill.bytes
        else [] := by
  induction waking with
  | nil => simp [Reader.receive, Waking.chunk, bytesTo_cons]
  | cons w rest ih =>
    have hw := h.sinks w List.mem_cons_self
    have hrest : Awake sink t rest := h.sublist (List.sublist_cons_self w rest)
    unfold Reader.receive
    split
    · next htap =>
      have hsame : w.sink = sink ↔ sink' = sink := by rw [hw, hs, htap]
      by_cases hsink : w.sink = sink
      · -- No other reader reads for the sink.
        have hnone : bytesTo sink (rest.map Waking.chunk) = [] := by
          have hothers : ∀ v ∈ rest, v.sink ≠ sink := by
            intro v hv heq
            have htaps := (List.nodup_cons.mp h.taps).1
            exact htaps (List.mem_map.mpr ⟨v, hv,
              ((hrest.sinks v hv).mp heq).trans (hw.mp hsink).symm⟩)
          unfold bytesTo
          rw [List.filter_eq_nil_iff.mpr]
          · rfl
          · intro x hx
            obtain ⟨v, hv, rfl⟩ := List.mem_map.mp hx
            simp [Waking.chunk, hothers v hv]
        simp [bytesTo_cons, hnone, Waking.chunk, hsink, hsame.mp hsink]
      · have hsink' : sink' ≠ sink := fun heq => hsink (hsame.mpr heq)
        simp [bytesTo_cons, Waking.chunk, hsink, hsink']
    · rw [List.map_cons, bytesTo_cons, ih hrest, List.map_cons, bytesTo_cons, List.append_assoc]

end Awake

variable [DecidableEq κ]

/-- The chunks for a sink are together what there is to read for it and what comes out of its
stream. -/
theorem bytesTo_chunksFrom {spills : List (κ × Spill)} (hs : ∀ x ∈ spills, x.1 = sink ↔ x.2.tap = t)
    {waking : List (Waking κ)} (h : Awake sink t waking) :
    bytesTo sink (chunksFrom waking spills) = bytesTo sink (waking.map Waking.chunk) ++
      (spills.filter fun x => x.1 = sink).flatMap fun x => unpack x.2.bytes := by
  induction spills generalizing waking with
  | nil => simp [chunksFrom]
  | cons x rest ih =>
    obtain ⟨sink', spill⟩ := x
    have hx := hs (sink', spill) List.mem_cons_self
    unfold chunksFrom
    rw [List.span_eq_takeWhile_dropWhile]
    dsimp only
    have hlater : Awake sink t (waking.dropWhile fun w => w.time < spill.time) :=
      h.sublist (List.dropWhile_sublist _)
    have hsplit : bytesTo sink (waking.map Waking.chunk) =
        bytesTo sink ((waking.takeWhile fun w => w.time < spill.time).map Waking.chunk) ++
          bytesTo sink ((waking.dropWhile fun w => w.time < spill.time).map Waking.chunk) := by
      rw [← bytesTo_append, ← List.map_append, List.takeWhile_append_dropWhile]
    rw [bytesTo_append, ih (fun y hy => hs y (List.mem_cons_of_mem _ hy)) (hlater.receive hx),
      hlater.bytesTo_receive hx, hsplit]
    by_cases hsink : sink' = sink <;> simp [hsink]

/-- The chunks for a sink are together what came out of its stream. -/
theorem bytesTo_chunks {spills : List (κ × Spill)} (hs : ∀ x ∈ spills, x.1 = sink ↔ x.2.tap = t) :
    bytesTo sink (chunks spills) = (spills.filter fun x => x.1 = sink).flatMap fun x =>
      unpack x.2.bytes :=
  bytesTo_chunksFrom hs ⟨by simp, List.nodup_nil⟩

end Pipeline.Reader

namespace Pump

variable {κ τ : Type}

theorem foldl_post (chunks : List (κ × Bytes)) (p : Pump κ) :
    chunks.foldl (fun p (sink, chunk) => p.post sink chunk) p =
      { p with queue := p.queue ++ chunks.map fun c => (c.1, some c.2) } := by
  induction chunks generalizing p with
  | nil => simp
  | cons c rest ih =>
    rw [List.foldl_cons, ih]
    simp [post]

theorem foldl_finish {α : Type} (streams : List α) (sink : α → κ) (p : Pump κ) :
    streams.foldl (fun p s => p.finish (sink s)) p =
      { p with queue := p.queue ++ streams.map fun s => (sink s, none) } := by
  induction streams generalizing p with
  | nil => simp
  | cons s rest ih =>
    rw [List.foldl_cons, ih]
    simp [finish]

/-- The pump writes all chunks if every stream has ended behind them. -/
theorem drain_all (write : κ → Bytes → τ → τ) (chunks : List (κ × Bytes)) (ends : List κ)
    (hends : ends = [] → chunks = []) (x : τ) :
    ({ queue := (chunks.map fun c => (c.1, some c.2)) ++ ends.map fun e => (e, none)
       active := ends.length } : Pump κ).drain
        write none x = ({}, chunks.foldl (fun x c => write c.1 c.2 x) x, .drained none) := by
  unfold drain
  dsimp only
  induction chunks generalizing x with
  | nil =>
    clear hends
    induction ends with
    | nil => rfl
    | cons e rest ih => exact ih
  | cons c rest ih =>
    cases ends with
    | nil => cases hends rfl
    | cons e more => exact ih (fun h => nomatch h) (write c.1 c.2 x)

end Pump

namespace Pipeline.Outlets

open Reader (bytesTo)

/-- The sinks of a terminal that have been fed bytes since it had shown something. Everything else
is as it was. -/
structure Fed (before fed : Bytes) (x₀ x : Outlets × Session) : Prop where
  session : x.2 = { x₀.2 with screen := x.2.screen }
  files : ∀ c, x.1.heldSink (.file c) = x₀.1.heldSink (.file c)
  sinks : ∀ c, ∃ pending, x.1.screenSink c =
    { stream := { channel := c, direct := x₀.2.direct }, pending }
  pending : (x.1.screenSink .out).pending = (Utf8.feed .none fed).2
  shown : x.2.screen.bytesOn .out = before ++ Utf8.encode (Utf8.feed .none fed).1

namespace Fed

variable {before fed : Bytes} {x₀ x : Outlets × Session}

/-- A chunk is written to a channel of the terminal. -/
theorem pour (h : Fed before fed x₀ x) (c : Channel) (chunk : Bytes) :
    Fed before (fed ++ if c = .out then chunk else []) x₀ (Outlets.pour (.screen c) chunk x) := by
  obtain ⟨pending, hsink⟩ := h.sinks c
  have halive : (x.1.screenSink c).isDead = false := by rw [hsink]; rfl
  have hwritten : Outlets.pour (.screen c) chunk x =
      (x.1.setScreenSink c
          { stream := { channel := c, direct := x₀.2.direct },
            pending := (Utf8.feed pending chunk).2 },
        { x.2 with screen :=
          if (Utf8.feed pending chunk).1 = "" then x.2.screen
            else x.2.screen.showText c (Utf8.feed pending chunk).1 }) := by
    have hbytes := writeBytes_screen halive chunk x.2.screen
    rw [hsink] at hbytes
    simp only [Outlets.pour, Outlets.writeBytes, act, hsink, hbytes]
  rw [hwritten]
  constructor
  · rw [h.session]
  · intro c'
    rw [heldSink_setScreenSink]
    exact h.files c'
  · intro c'
    rw [screenSink_setScreenSink]
    split
    · next hc => exact hc ▸ ⟨_, rfl⟩
    · exact h.sinks c'
  · rw [screenSink_setScreenSink]
    by_cases hc : c = .out
    · subst hc
      rw [if_pos rfl, if_pos rfl, Utf8.feed_append, ← h.pending, hsink]
    · rw [if_neg (Ne.symm hc), if_neg hc, List.append_nil]
      exact h.pending
  · have hshown : (if (Utf8.feed pending chunk).1 = "" then x.2.screen
        else x.2.screen.showText c (Utf8.feed pending chunk).1).bytesOn .out =
        x.2.screen.bytesOn .out ++ if c = .out then Utf8.encode (Utf8.feed pending chunk).1
          else [] := by
      split
      · next hempty => simp [hempty, Utf8.encode]
      · exact Screen.bytesOn_showText ..
    rw [hshown, h.shown]
    by_cases hc : c = .out
    · subst hc
      have hpending := h.pending
      rw [hsink] at hpending
      rw [if_pos rfl, if_pos rfl, Utf8.feed_append, ← hpending, Utf8.encode_append,
        List.append_assoc]
    · rw [if_neg hc, if_neg hc, List.append_nil, List.append_nil]

/-- The pump writes chunks to the channels of the terminal. -/
theorem pourAll {chunks : List (Outlet × Bytes)} (h : Fed before fed x₀ x)
    (hscreens : ∀ e ∈ chunks, ∃ c, e.1 = .screen c) :
    Fed before (fed ++ bytesTo (.screen .out) chunks) x₀
      (chunks.foldl (fun x e => Outlets.pour e.1 e.2 x) x) := by
  induction chunks generalizing fed x with
  | nil => simpa using h
  | cons e rest ih =>
    obtain ⟨c, hc⟩ := hscreens e List.mem_cons_self
    have hone : Fed before (fed ++ if e.1 = .screen .out then e.2 else []) x₀
        (Outlets.pour e.1 e.2 x) := by
      rw [hc]
      simpa using h.pour c e.2
    rw [Reader.bytesTo_cons, ← List.append_assoc]
    exact ih hone fun e' he' => hscreens e' (List.mem_cons_of_mem e he')

end Fed

end Pipeline.Outlets

end CommandShell
