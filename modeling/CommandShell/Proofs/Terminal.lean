import CommandShell.Proofs.Scope.Run
import CommandShell.Proofs.Text.Utf8
import CommandShell.Proofs.Traffic

/-!
# What a terminal shows of the output of programs

The sinks of a terminal decode what the pump hands them, across the chunks in which it arrives, and
are flushed but never closed. So a terminal shows the characters that are complete, whatever the
chunks were; a character that the output breaks off in is not shown, where decoding all of the
output would replace it.

## Main statements

- `Pipeline.Outlets.Feeding.writeAll`: what a channel of the screen has been fed is what it shows.
- `Pipeline.terminal_shows`: what a terminal shows of a stream, in whatever order things happen.
-/

namespace CommandShell

namespace Screen

/-- The text that a channel shows. -/
def textOn (screen : Screen) (c : Channel) : String := (screen.on c).text

theorem textOn_append (screen screen' : Screen) (c : Channel) :
    textOn (screen ++ screen') c = screen.textOn c ++ textOn screen' c := by
  simp [textOn, on, text, String.join_append]

end Screen

namespace Pipeline

/-- A sink of the screen that is given bytes shows the text that they complete, if any. -/
theorem writeBytes_screen {k : Sink Console} (halive : k.isDead = false) (bytes : Bytes)
    (screen : Screen) :
    k.writeBytes bytes screen = ({ k with pending := (Utf8.feed k.pending bytes).2 },
      if (Utf8.feed k.pending bytes).1 = "" then screen
      else screen.showText k.stream.channel (Utf8.feed k.pending bytes).1) := by
  unfold Sink.writeBytes
  rcases Utf8.feed k.pending bytes with ⟨text, pending⟩
  dsimp only
  by_cases hempty : text = ""
  · rw [if_pos (by simp [hempty]), if_pos hempty]
  · have hdead : ({ k with pending } : Sink Console).isDead = false := halive
    rw [if_neg (by simpa using hempty), if_neg hempty, Sink.write, if_neg (by simp [hdead])]
    simp [Sink.settle, TextStream.write]

/-- What a sink of the screen shows of the bytes that it is given: the text that they complete. -/
theorem writeBytes_alive {k : Sink Console} (halive : k.isDead = false) (bytes : Bytes)
    (screen : Screen) : ∃ shown : Screen,
      k.writeBytes bytes screen = ({ k with pending := (Utf8.feed k.pending bytes).2 },
        screen ++ shown) ∧
      ∀ c, Screen.textOn shown c = if k.stream.channel = c then (Utf8.feed k.pending bytes).1
        else "" := by
  rw [writeBytes_screen halive]
  split
  · next hempty =>
      exact ⟨[], by rw [List.append_nil], fun c => by simp [hempty, Screen.textOn, Screen.on,
        Screen.text]⟩
  · refine ⟨[{ channel := k.stream.channel, chunk := .text (Utf8.feed k.pending bytes).1 }], rfl,
      fun c => ?_⟩
    by_cases hc : k.stream.channel = c <;> simp [hc, Screen.textOn, Screen.on, Screen.text,
      Chunk.toText]

namespace Outlets

/-- A channel of a terminal in memory that has been fed bytes since it showed a text. -/
structure Feeding (c : Channel) (before : String) (fed : Bytes) (x : Outlets × Session) : Prop where
  direct : x.2.direct = false
  sinks : ∀ c', (x.1.screenSink c').stream.channel = c' ∧ (x.1.screenSink c').isDead = false
  pending : (x.1.screenSink c).pending = (Utf8.feed .none fed).2
  shown : x.2.screen.textOn c = before ++ (Utf8.feed .none fed).1

/-- The bytes for a channel of the screen among the items of a queue. -/
def bytesFor (c : Channel) (items : List (Outlet × Option Bytes)) : Bytes :=
  (items.filter fun item => item.1 = .screen c).flatMap fun item => item.2.getD []

/-- Write a chunk as the pump does. -/
def pour (outlet : Outlet) (chunk : Bytes) (x : Outlets × Session) : Outlets × Session :=
  Outlets.writeBytes chunk outlet x.1 x.2

variable {c : Channel} {before : String} {fed : Bytes} {x : Outlets × Session}

/-- What is written to a file or a pipe leaves a terminal in memory as it is. -/
theorem pour_elsewhere (hmemory : x.2.direct = false) {outlet : Outlet}
    (hne : ∀ c, outlet ≠ .screen c) (bytes : Bytes) : (∀ c, (pour outlet bytes x).1.screenSink c =
      x.1.screenSink c) ∧ (pour outlet bytes x).2.screen = x.2.screen ∧
      (pour outlet bytes x).2.direct = false := by
  have habsorb (system : Kernel) : (x.2.onKernel fun _ => system).absorb = x.2.onKernel fun _ =>
      system := by
    simp [Session.absorb, Session.onKernel, hmemory]
  unfold pour Outlets.writeBytes act
  split
  · exact absurd rfl (hne _)
  · split
    · exact ⟨fun _ => rfl, rfl, hmemory⟩
    · dsimp only
      rw [habsorb]
      exact ⟨fun _ => screenSink_setHeldSink .., rfl, hmemory⟩

theorem Feeding.elsewhere (hx : Feeding c before fed x) (outlet : Outlet)
    (hne : ∀ c, outlet ≠ .screen c) (bytes : Bytes) :
      Feeding c before fed (Outlets.pour outlet bytes x) := by
  obtain ⟨hsinks, hscreen, hmemory⟩ := pour_elsewhere hx.direct hne bytes
  constructor
  · exact hmemory
  · intro c'
    rw [hsinks]
    exact hx.sinks c'
  · rw [hsinks]
    exact hx.pending
  · rw [hscreen]
    exact hx.shown

theorem Feeding.screen (hx : Feeding c before fed x) (c' : Channel) (bytes : Bytes) :
    Feeding c before (fed ++ if c' = c then bytes else []) (Outlets.pour (.screen c') bytes x) := by
  obtain ⟨hchannel, halive⟩ := hx.sinks c'
  obtain ⟨shown, hwritten, hshown⟩ := writeBytes_alive halive bytes x.2.screen
  let k : Sink Console :=
    { x.1.screenSink c' with pending := (Utf8.feed (x.1.screenSink c').pending bytes).2 }
  have hpour : Outlets.pour (.screen c') bytes x =
      (x.1.setScreenSink c' k, { x.2 with screen := x.2.screen ++ shown }) := by
    simp only [Outlets.pour, Outlets.writeBytes, act, hwritten, k]
  have hfed := Utf8.feed_append .none fed bytes
  rw [hpour]
  constructor
  · exact hx.direct
  · intro c''
    rw [screenSink_setScreenSink]
    split
    · next hsame => exact hsame ▸ ⟨hchannel, halive⟩
    · exact hx.sinks c''
  · rw [screenSink_setScreenSink]
    by_cases hc : c = c'
    · subst hc
      rw [if_pos rfl, if_pos rfl, hfed, ← hx.pending]
    · rw [if_neg hc, if_neg (Ne.symm hc), List.append_nil]
      exact hx.pending
  · rw [Screen.textOn_append, hshown, hchannel, hx.shown]
    by_cases hc : c' = c
    · subst hc
      rw [if_pos rfl, if_pos rfl, hfed, hx.pending, String.append_assoc]
    · rw [if_neg hc, if_neg hc, List.append_nil, String.append_empty]

/-- What is written to the outlet of a channel is fed to the channel, and nothing else is. -/
theorem Feeding.pour (hx : Feeding c before fed x) (outlet : Outlet) (bytes : Bytes) :
    Feeding c before (fed ++ if outlet = .screen c then bytes else [])
      (Outlets.pour outlet bytes x) := by
  cases outlet with
  | screen c' => simpa only [Outlet.screen.injEq] using hx.screen c' bytes
  | file c' => simpa using hx.elsewhere (.file c') (by simp) bytes
  | next => simpa using hx.elsewhere .next (by simp) bytes

/-- What a channel of the screen has been fed is what it shows. -/
theorem Feeding.writeAll (hx : Feeding c before fed x) (items : List (Outlet × Option Bytes)) :
    Feeding c before (fed ++ bytesFor c items)
      (Pump.writeAll Outlets.pour items x) := by
  induction items generalizing fed x with
  | nil => simpa [bytesFor, Pump.writeAll] using hx
  | cons item rest ih =>
    obtain ⟨outlet, _ | chunk⟩ := item
    · have hrest : bytesFor c ((outlet, none) :: rest) = bytesFor c rest := by
        simp only [bytesFor, List.filter_cons]
        split <;> rfl
      rw [hrest]
      exact ih hx
    · have hrest : bytesFor c ((outlet, some chunk) :: rest) =
          (if outlet = .screen c then chunk else []) ++ bytesFor c rest := by
        simp only [bytesFor, List.filter_cons]
        split <;> simp_all
      rw [hrest, ← List.append_assoc]
      exact ih (hx.pour outlet chunk)

/-- Flushing a channel of a terminal in memory shows nothing more. -/
theorem Feeding.flush (hx : Feeding c before fed x) (c' : Channel) :
    (Outlets.flush (.screen c') x.1 x.2).2.screen = x.2.screen := by
  simp [Outlets.flush, act, Sink.flush, (hx.sinks c').2, Sink.settle, TextStream.flush]

/-- The sinks of a terminal have been fed nothing at the start. -/
theorem feeding_ofSession (s : Session) (hmemory : s.direct = false) (c : Channel) :
    Feeding c (s.screen.textOn c) [] (Outlets.ofSession s, s) where
  direct := hmemory
  sinks c' := by cases c' <;> exact ⟨rfl, rfl⟩
  pending := by cases c <;> rfl
  shown := String.append_empty.symm

end Outlets

/-- The bytes for a channel of the screen among postings are what the sink of the channel
receives. -/
theorem bytesFor_entries (c : Channel) (postings : List (Pump.Posting Outlet)) :
    Outlets.bytesFor c (postings.map Pump.Posting.entry) =
      ((postings.filter fun e => e.sink = .screen c).filterMap Pump.Posting.item).flatten := by
  induction postings with
  | nil => rfl
  | cons e rest ih =>
    unfold Outlets.bytesFor at ih ⊢
    obtain ⟨reader, sink, item⟩ := e
    by_cases hsink : sink = .screen c
    · cases item <;> simpa [Pump.Posting.entry, hsink] using ih
    · simpa [Pump.Posting.entry, hsink] using ih

/-- What a terminal in memory shows of a stream that is the only one for its channel, once the pump
is drained and the channel is flushed. Whatever the chunks are and whatever the other readers do, it
shows the characters that the bytes complete; that is the text that the bytes decode to just if they
do not break off in a character. -/
theorem terminal_shows {s : Session} (hmemory : s.direct = false) {acts : List (Pump.Act Outlet)}
    {t t' : Pump.Traffic Outlet (Outlets × Session)} {budget left : Option Nat}
    (hrun : Pump.Traffic.run Outlets.pour (Outlets.ofSession s, s) acts = t)
    (hdrained : t.drain Outlets.pour budget = (t', .drained left)) {c : Channel} {i : Nat}
    {f : Pump.Flow Outlet} (hf : t.flows[i]? = some f) (hsink : f.sink = .screen c)
    (hlone : ∀ (j : Nat) (g : Pump.Flow Outlet), t.flows[j]? = some g →
      g.sink = .screen c → j = i) :
    let shown := (Outlets.flush (.screen c) t'.sinks.1 t'.sinks.2).2.screen.textOn c
    shown = s.screen.textOn c ++ (Utf8.feed .none f.chunks.flatten).1 ∧
      (shown = s.screen.textOn c ++ Utf8.decode f.chunks.flatten ↔
        (Utf8.feed .none f.chunks.flatten).2 = .none) := by
  subst hrun
  have hstop := congrArg Prod.snd hdrained
  obtain rfl := congrArg Prod.fst hdrained
  have ht := (Pump.Traffic.sound_run Outlets.pour (Outlets.ofSession s, s) acts).drain budget
  have hcomplete :=
    (Pump.Traffic.sound_run Outlets.pour (Outlets.ofSession s, s) acts).drained hstop hf
  generalize Pump.Traffic.run Outlets.pour (Outlets.ofSession s, s) acts = t at *
  have hreceived : (t.drain Outlets.pour budget).1.receivedBy (.screen c) = f.chunks := by
    rw [← hsink] at hlone ⊢
    exact hcomplete.2 hlone
  have hfed : Outlets.Feeding c (s.screen.textOn c) f.chunks.flatten
      (t.drain Outlets.pour budget).1.sinks := by
    have hall := (Outlets.feeding_ofSession s hmemory c).writeAll
      (((t.drain Outlets.pour budget).1.postings.take (t.drain Outlets.pour budget).1.taken).map
        Pump.Posting.entry)
    rw [bytesFor_entries, List.nil_append] at hall
    rw [← hreceived, ht.sinks]
    exact hall
  intro shown
  have hshown : shown = s.screen.textOn c ++ (Utf8.feed .none f.chunks.flatten).1 :=
    (congrArg (Screen.textOn · c) (hfed.flush c)).trans hfed.shown
  refine ⟨hshown, ?_⟩
  rw [hshown, String.append_right_inj, Utf8.feed_eq_decode_iff]

/-- A stream that breaks off in a character, beside one for the other channel: the replacement is
not shown. -/
theorem terminal_shows_broken :
    let s : Session :=
      { cwd := Path.ofParts [], world := {}, machine := ⟨fun _ _ _ => .error .notFound⟩ }
    let t : Pump.Traffic Outlet (Outlets × Session) :=
      Pump.Traffic.run Outlets.pour (Outlets.ofSession s, s)
      [.attach (.screen .out) [[0x61, 0xE2], [0x82]], .attach (.screen .err) [[0x62]], .read 0,
        .read 1, .drain (some 1), .read 0, .read 1, .read 0]
    let t' := (t.drain Outlets.pour none).1
    s.direct = false ∧ (t.drain Outlets.pour none).2 = .drained none ∧
      (Outlets.flush (.screen .out) t'.sinks.1 t'.sinks.2).2.screen.textOn .out = "a" ∧
      Utf8.decode [0x61, 0xE2, 0x82] = "a\uFFFD" := by
  intro s t t'
  have hstop : (t.drain Outlets.pour none).2 = .drained none := by decide +kernel
  have hflows : t.flows = [⟨.screen .out, [[0x61, 0xE2], [0x82]], [], true⟩,
      ⟨.screen .err, [[0x62]], [], true⟩] := by
    decide +kernel
  have hlone : ∀ (j : Nat) (g : Pump.Flow Outlet), t.flows[j]? = some g →
      g.sink = .screen .out → j = 0 := by
    rw [hflows]
    rintro (_ | _ | j) g hg hsink
    · rfl
    · cases hg
      cases hsink
    · cases hg
  have hflow : t.flows[0]? = some ⟨.screen .out, [[0x61, 0xE2], [0x82]], [], true⟩ := by
    rw [hflows]
    rfl
  have hdrained : t.drain Outlets.pour none = (t', .drained none) := by
    rw [← hstop]
  have hshown := (terminal_shows rfl rfl hdrained hflow rfl hlone).1
  have htext : s.screen.textOn .out ++ (Utf8.feed .none [[0x61, 0xE2], [0x82]].flatten).1 =
      "a" := by decide +kernel
  have hdecoded : Utf8.decode [0x61, 0xE2, 0x82] = "a\uFFFD" := by decide +kernel
  exact ⟨rfl, hstop, hshown.trans htext, hdecoded⟩

end Pipeline

end CommandShell
