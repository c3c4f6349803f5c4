import CommandShell.Proofs.Spool.Run

/-!
# Filing the output of the last stage

The last stage of a pipeline writes to a spool through a sink, or lets a program write there by
itself. While the run goes on, what the spool holds and what waits in the sink are together all that
has been written; when the run has been tidied up, the spool holds it all.

## Main statements

- `Run.Filing.passes`: what is done for other stages, or while the shell waits.
- `Run.Filing.foldl_write`: what a builtin of the last stage writes.
- `Run.Filing.tidy`: what the spool holds in the end.
-/

namespace CommandShell

variable {d : Spool} {c : Channel}

namespace Kernel

/-- A course may be continued by another one. -/
theorem Course.trans {n : Nat} {place : Place} {k k' k'' : Kernel} {bytes more : Bytes}
    (h : Course n place k bytes k') (g : Course n place k' more k'') :
      Course n place k (bytes ++ more) k'' := by
  induction g with
  | refl => simpa using h
  | turn _ ih =>
    rw [← List.append_assoc]
    exact ih.turn
  | rest _ hm hplace ih => exact ih.rest hm hplace

/-- What a spool gains while something is done to the system: what tasks write there in their turns,
which is nothing if no task has the file. -/
def Gains (d : Spool) (k : Kernel) (bytes : Bytes) (k' : Kernel) : Prop :=
  (d.alone → bytes = []) ∧ (d.alone ∨ Course d.number d.place k bytes k')

theorem Gains.trans {k k' k'' : Kernel} {bytes more : Bytes} (h : Gains d k bytes k')
    (g : Gains d k' more k'') : Gains d k (bytes ++ more) k'' := by
  refine ⟨fun ha => by rw [h.1 ha, g.1 ha]; rfl, ?_⟩
  rcases h.2 with ha | hc
  · exact .inl ha
  · rcases g.2 with ha | hc'
    · exact .inl ha
    · exact .inr (hc.trans hc')

/-- Taking what has come out of the taps makes no difference to a spool. -/
theorem Spools.absorb {s : Session} {content : Bytes} (h : s.world.toKernel.Spools d content) :
    s.absorb.world.toKernel.Spools d content := by
  unfold Session.absorb
  split
  · exact h.of_same rfl rfl id (Nat.le_refl _) h.tasks
  · exact h

/-- Taking what has come out of the taps belongs to no task. -/
theorem Course.absorb {n : Nat} {place : Place} {k : Kernel} {bytes : Bytes} {s : Session}
    (h : Course n place k bytes s.world.toKernel) :
      Course n place k bytes s.absorb.world.toKernel := by
  unfold Session.absorb
  split
  · exact h.rest (.forget _ fun _ _ => trivial) rfl
  · exact h

end Kernel

/-- Acting on the system changes nothing that is steady. -/
theorem Session.steady_onKernel (s : Session) (f : Kernel → Kernel) :
    s.Steady (s.onKernel f).absorb := by
  unfold Session.absorb
  split <;> exact ⟨rfl, rfl, rfl, rfl, rfl, .refl _⟩

theorem Session.held_absorb (s : Session) : s.absorb.world.held = s.world.held := by
  unfold Session.absorb
  split <;> rfl

theorem Buffered.Spooling.absorb {total : Bytes} {b : Buffered Handle} {s : Session}
    (h : b.Spooling d total s.world.toKernel) : b.Spooling d total s.absorb.world.toKernel := by
  obtain ⟨content, hk, htotal⟩ := h.spools
  exact ⟨h.device, h.isOpen, (s.held_absorb).symm ▸ h.held, content, hk.absorb, htotal⟩

namespace Pipeline

@[simp] theorem Outlets.heldSink_setHeldSink_self (c : Channel) (o : Outlets) (s : HeldSink) :
    (o.setHeldSink (.file c) s).heldSink (.file c) = some s := by
  cases c <;> rfl

theorem Outlets.steady_act (f : SinkAction) (outlet : Outlet) (o : Outlets) (s : Session) :
    s.Steady (act f outlet o s).2 := by
  unfold act
  split
  · exact ⟨rfl, rfl, rfl, rfl, rfl, .refl _⟩
  · split
    · exact .refl s
    · exact s.steady_onKernel _

namespace Run

/-- What a run keeps to its end. -/
structure Keeps (r r' : Run) : Prop where
  steady : r.session.Steady r'.session
  out : r'.wiring.out = r.wiring.out
  err : r'.wiring.err = r.wiring.err
  stages : r'.stages = r.stages

/-- What is written to the file of a channel when a stage writes some texts. -/
def filed (r : Run) (i : Nat) (c : Channel) (writes : List Builtin.Emission) : Bytes :=
  (writes.filter fun e => r.outletFor i e.1 = .file c).flatMap fun e => Utf8.encode e.2

/-- A run in which a spool has been given some bytes. -/
structure Filing (d : Spool) (c : Channel) (total : Bytes) (r : Run) : Prop where
  aside : r.Aside d c
  sink : ∃ s, r.wiring.outlets.heldSink (.file c) = some s ∧ s.Spooling d total r.kernel ∧
    (d.alone ∨ s.stream.Empty)

variable {r r' r'' : Run} {total : Bytes}

namespace Keeps

theorem refl (r : Run) : r.Keeps r := ⟨.refl _, rfl, rfl, rfl⟩

theorem trans (h : r.Keeps r') (g : r'.Keeps r'') : r.Keeps r'' :=
  ⟨h.steady.trans g.steady, g.out.trans h.out, g.err.trans h.err, g.stages.trans h.stages⟩

theorem isLast (h : r.Keeps r') (i : Nat) : r'.isLast i = r.isLast i := by
  simp only [Run.isLast, h.stages]

theorem outletFor (h : r.Keeps r') (i : Nat) (channel : Channel) :
    r'.outletFor i channel = r.outletFor i channel := by
  cases channel with
  | out => simp only [Run.outletFor, Run.outOutlet, h.isLast, h.out]
  | err => simp only [Run.outletFor, Run.errOutlet, h.isLast, h.err]

theorem filed (h : r.Keeps r') (i : Nat) (c : Channel) (writes : List Builtin.Emission) :
    r'.filed i c writes = r.filed i c writes := by
  simp only [Run.filed, h.outletFor]

end Keeps

theorem Passes.keeps (h : r.Passes d c r') : r.Keeps r' :=
  ⟨h.session.steady, h.out, h.err, h.stages⟩

/-- Acting on an outlet changes nothing that a run keeps. -/
theorem keeps_act (f : SinkAction) (outlet : Outlet) (r : Run) :
    r.Keeps (r.onOutlet (Outlets.act f outlet)) :=
  ⟨Outlets.steady_act .., rfl, rfl, rfl⟩

theorem keeps_write (r : Run) (outlet : Outlet) (text : String) : r.Keeps (r.write outlet text) :=
  keeps_act ..

theorem keeps_flush (r : Run) (outlet : Outlet) : r.Keeps (r.flush outlet) := keeps_act ..

theorem keeps_onLedger (r : Run) {f : Ledger → Ledger} (hf : (f r.toLedger).stages = r.stages) :
    r.Keeps (r.onLedger f) := ⟨.refl _, rfl, rfl, hf⟩

theorem keeps_onKernel (r : Run) (f : Kernel → Kernel) : r.Keeps (r.onKernel f) :=
  ⟨r.session.steady_onKernel f, rfl, rfl, rfl⟩

theorem keeps_log (r : Run) (level : Log.Level) (message : String) (pid : Option Nat) :
    r.Keeps (r.log level message pid) := by
  refine ⟨?_, rfl, rfl, rfl⟩
  unfold log Session.note
  generalize r.session.log.record _ = recorded
  obtain ⟨log, _ | ⟨channel, line⟩⟩ := recorded <;> exact ⟨rfl, rfl, rfl, rfl, rfl, .refl _⟩

theorem keeps_foldl_write (r : Run) (i : Nat) (writes : List Builtin.Emission) :
    r.Keeps (writes.foldl (fun r e => r.write (r.outletFor i e.1) e.2) r) := by
  induction writes generalizing r with
  | nil => exact .refl r
  | cons e rest ih => exact (keeps_write ..).trans (ih _)

namespace Filing

/-- What is done for other stages, or while the shell waits. -/
theorem passes (h : r.Filing d c total) (hp : r.Passes d c r') :
    ∃ bytes, r'.Filing d c (total ++ bytes) ∧ Kernel.Gains d r.kernel bytes r'.kernel := by
  obtain ⟨s, hs, hsink, hempty⟩ := h.sink
  obtain ⟨bytes, hstream, halone, hcourse⟩ := hsink.stream.moves hempty hp.session.moves
  exact ⟨bytes, ⟨hp.aside, s, hp.sink.trans hs,
    ⟨hstream, hsink.owned, hsink.closed, hsink.broken, hsink.pending⟩,
    hempty⟩, halone, .inr hcourse⟩

/-- Nothing comes to the spool by itself if no task has the file. -/
theorem passes_alone (h : r.Filing d c total) (ha : d.alone) (hp : r.Passes d c r') :
    r'.Filing d c total := by
  obtain ⟨bytes, hfiling, hgains⟩ := h.passes hp
  rwa [hgains.1 ha, List.append_nil] at hfiling

/-- Acting on the sink of the spool. -/
theorem act (h : r.Filing d c total) {total' : Bytes} {f : SinkAction}
    (hf : ∀ (s : HeldSink) (k : Kernel), s.Spooling d total k → (d.alone ∨ s.stream.Empty) →
      (f s k).1.Spooling d total' (f s k).2 ∧ (d.alone ∨ (f s k).1.stream.Empty)) :
    (r.onOutlet (Outlets.act f (.file c))).Filing d c total' := by
  obtain ⟨s, hs, hsink, hempty⟩ := h.sink
  obtain ⟨hspooling, hempty'⟩ := hf s r.kernel hsink hempty
  have hstream : (f s r.kernel).1.stream.Spooling d total'
      (r.session.onKernel fun _ => (f s r.kernel).2).absorb.world.toKernel :=
        .absorb hspooling.stream
  have hact : r.onOutlet (Outlets.act f (.file c)) = { r with
      wiring := { r.wiring with outlets := r.wiring.outlets.setHeldSink (.file c) (f s r.kernel).1 }
      session := (r.session.onKernel fun _ => (f s r.kernel).2).absorb } := by
    simp only [onOutlet, Outlets.act, hs]
    rfl
  rw [hact]
  obtain ⟨content, hk, -⟩ := hstream.spools
  refine ⟨⟨⟨content, hk⟩, fun outlet s' ho hs' => ?_, h.aside.streams, h.aside.queue⟩, _,
    Outlets.heldSink_setHeldSink_self ..,
      ⟨hstream, hspooling.owned, hspooling.closed, hspooling.broken, hspooling.pending⟩, hempty'⟩
  rw [Outlets.heldSink_setHeldSink_of_ne ho] at hs'
  exact h.aside.devices outlet s' ho hs'

/-- Writing a text to an outlet. -/
theorem write (h : r.Filing d c total) (ha : d.alone) (outlet : Outlet) (text : String) :
    (r.write outlet text).Filing d c
    (total ++ if outlet = .file c then Utf8.encode text else []) := by
  by_cases ho : outlet = .file c
  · subst ho
    rw [if_pos rfl]
    exact h.act fun s k hs _ => ⟨hs.write text, .inl ha⟩
  · rw [if_neg ho, List.append_nil]
    exact h.passes_alone ha (h.aside.passes_write ho text)

/-- Flushing an outlet. -/
theorem flush (h : r.Filing d c total) (ha : d.alone) (outlet : Outlet) :
    (r.flush outlet).Filing d c total := by
  by_cases ho : outlet = .file c
  · subst ho
    exact h.act fun s k hs _ => ⟨hs.flush.1, .inl ha⟩
  · exact h.passes_alone ha (h.aside.passes_flush ho)

/-- Writing texts to the outlets of a stage. -/
theorem foldl_write (h : r.Filing d c total) (ha : d.alone) (i : Nat)
    (writes : List Builtin.Emission) :
    (writes.foldl (fun r e => r.write (r.outletFor i e.1) e.2) r).Filing d c
      (total ++ r.filed i c writes) := by
  induction writes generalizing r total with
  | nil => simpa [filed] using h
  | cons e rest ih =>
    have hrest := ih (h.write ha (r.outletFor i e.1) e.2)
    rw [(keeps_write ..).filed] at hrest
    by_cases ho : r.outletFor i e.1 = .file c
    · simpa [filed, List.filter_cons, ho] using hrest
    · simpa [filed, List.filter_cons, ho] using hrest

/-- When the sink of the spool has been closed the spool holds all that it has been given. -/
theorem close (h : r.Filing d c total) : (r.onOutlet (Outlets.close (.file c))).Aside d c ∧
    (r.onOutlet (Outlets.close (.file c))).kernel.Spools d total ∧
    Kernel.Gains d r.kernel [] (r.onOutlet (Outlets.close (.file c))).kernel := by
  obtain ⟨s, hs, hsink, hempty⟩ := h.sink
  have hact : r.onOutlet (Outlets.close (.file c)) = { r with
      wiring :=
        { r.wiring with outlets := r.wiring.outlets.setHeldSink (.file c) (s.close r.kernel).1 }
      session := (r.session.onKernel fun _ => (s.close r.kernel).2).absorb } := by
    simp only [onOutlet, Outlets.close, Outlets.act, hs]
    rfl
  have hclosed : (r.session.onKernel fun _ =>
      (s.close r.kernel).2).absorb.world.toKernel.Spools d total :=
    .absorb hsink.close
  have hcourse (he : s.stream.Empty) : Kernel.Course d.number d.place r.kernel []
      (r.session.onKernel fun _ => (s.close r.kernel).2).absorb.world.toKernel := by
    have hgone : Kernel.Course d.number d.place r.kernel [] (s.close r.kernel).2 := by
      obtain ⟨-, hw | hw⟩ := (hsink.idle he).close r.kernel <;> rw [hw]
      · exact .refl
      · exact .rest .refl (.letGo _ trivial trivial)
          (congrArg (FileSystem.get? · _) (Kernel.files_letGo ..))
    exact hgone.absorb
  rw [hact]
  refine ⟨⟨⟨total, hclosed⟩, fun outlet s' ho hs' => ?_, h.aside.streams, h.aside.queue⟩, hclosed,
    fun _ => rfl, hempty.imp id hcourse⟩
  rw [Outlets.heldSink_setHeldSink_of_ne ho] at hs'
  exact h.aside.devices outlet s' ho hs'

/-- What a spool holds when the run has been tidied up. -/
theorem tidy (h : r.Filing d c total) :
    ∃ bytes, r.tidy.kernel.Spools d (total ++ bytes) ∧
      Kernel.Gains d r.kernel bytes r.tidy.kernel := by
  -- what comes after the sink of the spool has been closed is nothing to the spool but what tasks
  -- write
  have hrest {r₁ r₂ : Run} {given before : Bytes} (ha : r₁.Aside d c)
      (hk : r₁.kernel.Spools d given)
      (hg : Kernel.Gains d r.kernel before r₁.kernel) (hp : r₁.Passes d c r₂)
        (hgiven : given = total ++ before) :
      ∃ bytes, r₂.kernel.Spools d (total ++ bytes) ∧ Kernel.Gains d r.kernel bytes r₂.kernel := by
    obtain ⟨bytes, hk', halone, hcourse⟩ := hk.moves hp.session.moves
    refine ⟨before ++ bytes, ?_, hg.trans ⟨halone, .inr hcourse⟩⟩
    rwa [← List.append_assoc, ← hgiven]
  have hall := h.aside.passes_closeAll
  cases c with
  | out =>
    obtain ⟨bytes, hfiling, hgains⟩ := h.passes hall
    obtain ⟨haside, hk, hclosing⟩ := hfiling.close
    have herr := haside.passes_close (show Outlet.file .err ≠ .file .out by simp)
    have hflush := herr.aside.passes_flush (show Outlet.screen .out ≠ .file .out by simp)
    have hagain := hflush.aside.passes_flush (show Outlet.screen .err ≠ .file .out by simp)
    have hend := herr.trans (hflush.trans hagain)
    have hsofar := hgains.trans hclosing
    rw [List.append_nil] at hsofar
    exact hrest haside hk hsofar hend rfl
  | err =>
    have hout := hall.trans (hall.aside.passes_close (show Outlet.file .out ≠ .file .err by simp))
    obtain ⟨bytes, hfiling, hgains⟩ := h.passes hout
    obtain ⟨haside, hk, hclosing⟩ := hfiling.close
    have hflush := haside.passes_flush (show Outlet.screen .out ≠ .file .err by simp)
    have hend :=
      hflush.trans (hflush.aside.passes_flush (show Outlet.screen .err ≠ .file .err by simp))
    have hsofar := hgains.trans hclosing
    rw [List.append_nil] at hsofar
    exact hrest haside hk hsofar hend rfl

/-- What a spool holds when the run has come to its end. -/
theorem finish (h : r.Filing d c total) : ∃ bytes, r.join.tidy.kernel.Spools d (total ++ bytes) ∧
    Kernel.Gains d r.kernel bytes r.join.tidy.kernel := by
  obtain ⟨bytes, hjoined, hgains⟩ := h.passes h.aside.passes_join
  obtain ⟨more, hk, hgains'⟩ := hjoined.tidy
  exact ⟨bytes ++ more, by rwa [← List.append_assoc], hgains.trans hgains'⟩

end Filing

end Run

end Pipeline

end CommandShell
