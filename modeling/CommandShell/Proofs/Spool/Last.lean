import CommandShell.Proofs.Spool.Filing

/-!
# What the last stage writes

The texts that the shell or a builtin writes for the last stage go to the outlets of the stage one
after the other, and a program of the stage is given descriptors that lead there. A program that has
been given the file of a spool writes to it by itself, in the turns that it and what it starts take.

## Main statements

- `Run.Filing.notFound`, `Run.Filing.cannotStart`: messages of the shell.
- `Run.Filing.runBuiltin`: a builtin of the last stage.
- `Run.Filing.spawnProgram`: a program of the last stage.
-/

namespace CommandShell

variable {d : Spool} {c : Channel}

/-- A spool that tasks may have. -/
def Spool.shared (d : Spool) : Spool := { d with alone := False }

theorem Kernel.Spools.share {k : Kernel} {content : Bytes} (h : k.Spools d content) :
    k.Spools d.shared content :=
  { h with tasks := fun t ht => ⟨(h.tasks t ht).avoids, fun ha => absurd ha id⟩ }

namespace Pipeline.Run

variable {r r' : Run} {total : Bytes} {i : Nat} {stage : Stage}

/-- A run in whose sink for a file nothing waits. -/
def Drained (c : Channel) (r : Run) : Prop :=
  ∀ s, r.wiring.outlets.heldSink (.file c) = some s → s.stream.Empty

theorem Passes.drained (h : r.Passes d c r') (hd : r.Drained c) : r'.Drained c := fun s hs =>
  hd s (h.sink.symm.trans hs)

section Keeps

theorem keeps_note (r : Run) (e : Event) : r.Keeps (r.note e) := keeps_onLedger r rfl

theorem session_handAll (r : Run) (i : Nat) (ends : List CouplerEnd) :
    (r.handAll i ends).session = r.session := by
  unfold handAll
  induction ends generalizing r with
  | nil => rfl
  | cons e rest ih => exact ih (r.note (.handed e i))

theorem keeps_notFound (r : Run) (i : Nat) (stage : Stage) : r.Keeps (r.notFound i stage) := by
  have hflush := (r.keeps_write (r.errOutlet i) (stage.command ++ ": command not found\n")).trans
    (keeps_flush _ (r.errOutlet i))
  have hlog := hflush.trans (keeps_log _ .warning ("command not found: " ++ stage.command) none)
  exact hlog.trans (keeps_onLedger _ (f := fun l => l.miss i) rfl)

theorem keeps_cannotStart (r : Run) (i : Nat) (stage : Stage) (e : StartError) :
    r.Keeps (r.cannotStart i stage e) := by
  have hlog := r.keeps_log .warning ("cannot start " ++ stage.command ++ ": " ++ e.message) none
  have hwrite :=
    hlog.trans (keeps_write _ (r.errOutlet i) (stage.command ++ ": " ++ e.error.text ++ "\n"))
  have hflush := hwrite.trans (keeps_flush _ (r.errOutlet i))
  exact hflush.trans (keeps_onLedger _ (f := fun l => l.refuse i) rfl)

end Keeps

namespace Filing

theorem onLedger (h : r.Filing d c total) {f : Ledger → Ledger}
    (hf : (f r.toLedger).stages = r.stages) : (r.onLedger f).Filing d c total :=
  ⟨(h.aside.passes_onLedger hf).aside, h.sink⟩

theorem note (h : r.Filing d c total) (e : Event) : (r.note e).Filing d c total := h.onLedger rfl

theorem log (h : r.Filing d c total) (ha : d.alone) (level : Log.Level) (message : String)
    (pid : Option Nat) : (r.log level message pid).Filing d c total :=
      h.passes_alone ha (h.aside.passes_log ..)

/-- The shell says that a command was not found. -/
theorem notFound (h : r.Filing d c total) (ha : d.alone) (i : Nat) (stage : Stage) :
    (r.notFound i stage).Filing d c
      (total ++ r.filed i c [(.err, stage.command ++ ": command not found\n")]) := by
  have hwrite := h.foldl_write ha i [(.err, stage.command ++ ": command not found\n")]
  exact ((hwrite.flush ha _).log ha ..).onLedger (f := fun l => l.miss i) rfl

/-- The shell says that a program could not be started. -/
theorem cannotStart (h : r.Filing d c total) (ha : d.alone) (i : Nat) (stage : Stage)
    (e : StartError) : (r.cannotStart i stage e).Filing d c
      (total ++ r.filed i c [(.err, stage.command ++ ": " ++ e.error.text ++ "\n")]) := by
  have hlog := h.log ha .warning ("cannot start " ++ stage.command ++ ": " ++ e.message) none
  have hwrite := hlog.foldl_write ha i [(.err, stage.command ++ ": " ++ e.error.text ++ "\n")]
  exact (hwrite.flush ha _).onLedger (f := fun l => l.refuse i) rfl

variable {capture : Builtin.Capture}

/-- A builtin of the last stage. -/
theorem runBuiltin (h : r.Filing d c total) (ha : d.alone) (hi : r.isLast i = true)
    (hs : stage.Edits d.origin d.place capture r.session.environment) {b : Builtin}
    (hb : stage.target = .builtin b) (hn : (r.runBuiltin capture i stage b).1 = none) :
    (r.runBuiltin capture i stage b).2.Filing d c (total ++ r.filed i c
      (b.run capture (r.log .debug ("builtin " ++ stage.command)).session stage.args).writes) := by
  have hok := Aside.callBuiltin_ne_fault hn
  have hcall : (r.callBuiltin capture i stage b).2.Filing d c (total ++ r.filed i c
      (b.run capture (r.log .debug ("builtin " ++ stage.command)).session stage.args).writes) := by
    unfold callBuiltin at hok ⊢
    simp only [hi, if_true, Builtin.runUntil_none] at hok ⊢
    have hcalled := (h.log ha .debug ("builtin " ++ stage.command) none).note (.called i)
    have hkeeps :=
      (r.keeps_log .debug ("builtin " ++ stage.command) none).trans (keeps_note _ (.called i))
    change Filing d c (total ++ r.filed i c (b.run capture
      ((r.log .debug ("builtin " ++ stage.command)).note (.called i)).session stage.args).writes) _
    generalize (r.log .debug ("builtin " ++ stage.command)).note (.called i) =
      r₁ at hok hcalled hkeeps ⊢
    rw [Aside.runFor_eq_foldl (hs b hb).1 hok]
    have hreply := hcalled.aside.passes_reply (hkeeps.steady.environment ▸ hs) hb
    generalize b.run capture r₁.session stage.args = reply at hreply ⊢
    have hkept := hkeeps.trans hreply.keeps
    have hwritten := (hcalled.passes_alone ha hreply).foldl_write ha i reply.writes
    rw [hkept.filed] at hwritten
    have hreturned := hwritten.note (.returned i reply.ending)
    have hlast := (((hkept.trans (keeps_foldl_write _ i reply.writes)).trans
      (keeps_note _ (.returned i reply.ending))).isLast i).trans hi
    dsimp only
    rw [if_pos hlast]
    exact (hreturned.flush ha _).flush ha _
  unfold Run.runBuiltin at hn ⊢
  split <;> next hr =>
    rw [hr] at hcall
    first
    | exact hcall.onLedger (f := fun l => l.complete i _) rfl
    | simp [hr] at hn

section Programs

/-- What comes of routing an outlet to a program: the program is given the file of the spool if the
outlet is that of the spool, and nothing comes to wait. -/
structure Routes (d : Spool) (c : Channel) (total : Bytes) (r : Run) (outlet : Outlet)
    (routed : Run × Handle × List (Nat × Outlet)) : Prop where
  filing : routed.1.Filing d c total
  keeps : r.Keeps routed.1
  drained : r.Drained c → routed.1.Drained c
  leads : routed.2.1 = .file d.number ↔ outlet = .file c
  streams : ∀ x ∈ routed.2.2, x.2 ≠ .file c

theorem routeTo (h : r.Filing d c total) (ha : d.alone) (outlet : Outlet) :
    Routes d c total r outlet (r.routeTo outlet) := by
  by_cases ho : outlet = .file c
  · subst ho
    have hflush := h.flush ha (.file c)
    have hdrained : (r.flush (.file c)).Drained c := by
      obtain ⟨s, hs, hsink, -⟩ := h.sink
      intro s' hs'
      have hset : (r.flush (.file c)).wiring.outlets.heldSink (.file c) =
          some (s.flush r.kernel).1 := by
        simp only [Run.flush, onOutlet, Outlets.flush, Outlets.act, hs]
        exact Outlets.heldSink_setHeldSink_self ..
      cases hset.symm.trans hs'
      exact hsink.flush.2
    obtain ⟨s, hs, hsink, -⟩ := hflush.sink
    have hhandle : (r.flush (.file c)).wiring.outlets.handle? (.file c) =
        some (.file d.number) := by
      have hdescriptor : s.hasDescriptor = true := hsink.stream.isOpen
      simp only [Outlets.handle?, hs, Option.bind_some, hdescriptor, if_true, hsink.stream.device]
    unfold Run.routeTo
    simp only [hhandle]
    exact ⟨hflush, r.keeps_flush (.file c), fun _ => hdrained,
      ⟨fun _ => rfl, fun _ => rfl⟩, by simp⟩
  · obtain ⟨hpass, htouch, hstreams⟩ := h.aside.passes_routeTo ho
    obtain ⟨_, hk⟩ := h.aside.spools
    refine ⟨h.passes_alone ha hpass, hpass.keeps, hpass.drained,
      ⟨fun heq => ?_, fun heq => absurd heq ho⟩, hstreams⟩
    exact absurd rfl (hk.asides _ (htouch _ heq)).2

/-- The descriptors of a program of the last stage lead where the stage writes. -/
theorem descriptorsFor (h : r.Filing d c total) (ha : d.alone) (hi : r.isLast i = true)
    {merges : Bool} (hm : merges = true → r.wiring.err = r.wiring.out) :
    (r.descriptorsFor i merges).1.Filing d c total ∧ r.Keeps (r.descriptorsFor i merges).1 ∧
      (r.Drained c → (r.descriptorsFor i merges).1.Drained c) ∧
      ((r.descriptorsFor i merges).2.1.lookup 1 = some (.file d.number) ↔ r.wiring.out = .file c) ∧
      ((r.descriptorsFor i merges).2.1.lookup 2 = some (.file d.number) ↔ r.wiring.err = .file c) ∧
      ∀ x ∈ (r.descriptorsFor i merges).2.2, x.2 ≠ .file c := by
  have hout := h.routeTo ha r.wiring.out
  unfold Run.descriptorsFor
  simp only [hi, if_true]
  generalize r.routeTo r.wiring.out = routed at hout
  obtain ⟨r₁, out, outStreams⟩ := routed
  have hi₁ : r₁.isLast i = true := (hout.keeps.isLast i).trans hi
  dsimp only at hi₁ ⊢
  rw [hi₁, Bool.true_and]
  cases merges with
  | true =>
    simp only [if_true, List.append_nil]
    refine ⟨hout.filing, hout.keeps, hout.drained, ?_, ?_, hout.streams⟩
    · simpa [List.lookup_cons] using hout.leads
    · simpa [List.lookup_cons, hm rfl] using hout.leads
  | false =>
    have herr := hout.filing.routeTo ha (r₁.errOutlet i)
    have hkeeps : r.Keeps r₁ := hout.keeps
    have houtlet : r₁.errOutlet i = r.wiring.err := by
      simp only [errOutlet, hi₁, if_true, hkeeps.err]
    simp only [Bool.false_eq_true, if_false]
    generalize r₁.routeTo (r₁.errOutlet i) = routed' at herr
    obtain ⟨r₂, err, errStreams⟩ := routed'
    rw [houtlet] at herr
    refine ⟨herr.filing, hout.keeps.trans herr.keeps, fun hd => herr.drained (hout.drained hd), ?_,
      ?_, fun x hx => ?_⟩
    · simpa [List.lookup_cons] using hout.leads
    · simpa [List.lookup_cons] using herr.leads
    · exact (List.mem_append.mp hx).elim (hout.streams x) (herr.streams x)

/-- Tasks may have the spool from now on if nothing waits in its sink. -/
theorem share (h : r.Filing d c total) (hd : r.Drained c) : r.Filing d.shared c total := by
  obtain ⟨s, hs, hsink, -⟩ := h.sink
  obtain ⟨content, hk, htotal⟩ := hsink.stream.spools
  refine ⟨⟨⟨content, hk.share⟩, h.aside.devices, h.aside.streams, h.aside.queue⟩, s, hs,
    ⟨⟨hsink.stream.device, hsink.stream.isOpen, hsink.stream.held, content, hk.share, htotal⟩,
      hsink.owned, hsink.closed, hsink.broken, hsink.pending⟩, .inr (hd s hs)⟩

/-- A task is started that may have the spool. -/
theorem spawnTask (h : r.Filing d.shared c total) {process : Process}
    (hp : process.Avoids d.origin d.place) (descriptors : List (Nat × Handle)) :
    (r.onKernel fun _ => (r.kernel.spawn process descriptors).2).Filing d.shared c total := by
  obtain ⟨s, hs, hsink, hempty⟩ := h.sink
  obtain ⟨content, hk, htotal⟩ := hsink.stream.spools
  have hspawned : (r.kernel.spawn process descriptors).2.Spools d.shared content :=
    hk.spawn hp fun ha => absurd ha id
  have hstream : s.stream.Spooling d.shared total
      (r.session.onKernel fun _ => (r.kernel.spawn process descriptors).2).absorb.world.toKernel :=
    .absorb ⟨hsink.stream.device, hsink.stream.isOpen, hsink.stream.held, content, hspawned, htotal⟩
  obtain ⟨content', hk', -⟩ := hstream.spools
  exact ⟨⟨⟨content', hk'⟩, h.aside.devices, h.aside.streams, h.aside.queue⟩, s, hs,
    ⟨hstream, hsink.owned, hsink.closed, hsink.broken, hsink.pending⟩, hempty⟩

/-- What has come of starting a program of the last stage: the shell has said that it could not be
started, or it has been given descriptors that lead where the stage writes, and goes on by
itself. -/
theorem spawnProgram (h : r.Filing d c total) (ha : d.alone) (hd : r.Drained c)
    (hi : r.isLast i = true) {path : Path} (ht : stage.target = .program (some path))
    (hs : stage.Starts d.origin d.place r.session.machine)
    (hm : stage.redirections.merges = true → r.wiring.err = r.wiring.out)
    (hn : (r.spawnProgram i stage path).1 = none) :
    r.Keeps (r.spawnProgram i stage path).2 ∧
      ((∃ e, start (r.descriptorsFor i stage.redirections.merges).1.session
        (stage.command :: stage.args) path =
          .error e ∧
        (r.spawnProgram i stage path).2.Filing d c
          (total ++ r.filed i c [(.err, stage.command ++ ": " ++ e.error.text ++ "\n")])) ∨
      ∃ process bytes, start (r.descriptorsFor i stage.redirections.merges).1.session
        (stage.command :: stage.args)
          path = .ok process ∧
        (r.spawnProgram i stage path).2.Filing d.shared c (total ++ bytes) ∧
        Kernel.Course d.number d.place
          ((r.descriptorsFor i stage.redirections.merges).1.kernel.spawn process
            (r.descriptorsFor i stage.redirections.merges).2.1).2
          bytes (r.spawnProgram i stage path).2.kernel) := by
  obtain ⟨hfiling, hkeeps, hdrained, -, -, hstreams⟩ := h.descriptorsFor ha hi hm
  replace hdrained := hdrained hd
  unfold Run.spawnProgram at hn ⊢
  dsimp only at hn ⊢
  generalize Run.inputEnds i ++ r.outputEnds i = ends at hn ⊢
  generalize r.descriptorsFor i stage.redirections.merges =
    routed at hn hfiling hkeeps hdrained hstreams ⊢
  obtain ⟨r₁, descriptors, streams⟩ := routed
  dsimp only at hn hfiling hkeeps hdrained hstreams ⊢
  have hhand := hfiling.aside.passes_handAll i ends
  have hsession := r₁.session_handAll i ends
  have hkept := hkeeps.trans hhand.keeps
  replace hfiling := hfiling.passes_alone ha hhand
  replace hdrained := hhand.drained hdrained
  rw [← hsession, show r₁.kernel = (r₁.handAll i ends).kernel
    from congrArg (fun s => s.world.toKernel) hsession.symm]
  generalize r₁.handAll i ends = r₂ at hn hfiling hdrained hkept ⊢
  split at hn
  · cases hn
  · split
    · next e he =>
      have hrefused := hfiling.cannotStart ha i stage e
      rw [hkept.filed] at hrefused
      have hclose := hrefused.aside.passes_closeEnds ends
      exact ⟨(hkept.trans (r₂.keeps_cannotStart i stage e)).trans hclose.keeps,
        .inl ⟨e, he, hrefused.passes_alone ha hclose⟩⟩
    · next process hp =>
      have havoids := hs path ht r₂.session process hkept.steady.machine hp
      have hspawned := (hfiling.share hdrained).spawnTask havoids descriptors
      have hstart := hspawned.aside.passes_onLedger (f := fun l => l.start i r₂.kernel.nextPid) rfl
      have hclose := hstart.aside.passes_closeEnds ends
      have hlog :=
        hclose.aside.passes_log .debug ("started " ++ stage.command) (some r₂.kernel.nextPid)
      have hattach := hlog.aside.passes_attach hstreams
      have hend := hstart.trans (hclose.trans (hlog.trans hattach))
      obtain ⟨bytes, hfiled, -, halone | hcourse⟩ := hspawned.passes hend
      · exact absurd halone id
      · refine ⟨(hkept.trans (r₂.keeps_onKernel _)).trans hend.keeps,
          .inr ⟨process, bytes, hp, hfiled, ?_⟩⟩
        exact Kernel.Course.trans (Kernel.Course.absorb (s := r₂.session.onKernel fun _ =>
          (r₂.kernel.spawn process descriptors).2) .refl) hcourse

end Programs

end Filing

end Pipeline.Run

end CommandShell
