import CommandShell.Proofs.Spool.Wiring
import CommandShell.Proofs.Flow.Staffing

/-!
# A run that drives a chain

A pipeline is run between two prompts, when nothing else runs and nothing is open. Once the files of
its last stage are open and its couplers are made, none of its programs has been started. When all
of them have been started, they are at work as a chain: of each pipe between them the shell holds
the writing end if a builtin stands before it, and nothing else.

## Main statements

- `Session.AtRest`: a session in which nothing runs.
- `Pipeline.Opens`: such a session when files have been opened for the last stage.
- `Pipeline.Run.starting_init`: a run at its start.
- `Pipeline.Run.holds_spawnAll`: the ends of pipes that the shell holds when the programs have been
  started.
- `Pipeline.Run.Drives`: a run whose programs are at work as a chain.
- `Pipeline.Run.Staffed.drives`: that is so once all programs have been started.
-/

/-! ### A run at its start -/

namespace CommandShell

/-- A session in which nothing runs and nothing is open. -/
structure Session.AtRest (s : Session) : Prop where
  tasks : s.world.tasks = []
  opened : s.world.opened = []
  pipes : s.world.pipes = []
  held : s.world.held = []
  spilled : s.world.spilled = []
  interrupts : s.interrupts = []
  nextPid : 0 < s.world.nextPid

namespace Kernel

/-- What is opened for writing is no directory. -/
theorem openText_ne_directory {k k' : Kernel} {base : Place} {text : String} {access : Access}
    {h : Handle} (hw : access.write = true) (ho : k.openText base text access = .ok (h, k')) :
      h ≠ .directory := by
  have hopen (k : Kernel) (f : FileSystem.OpenFile)
      (ho : (.ok (k.addOpened f) : Except Errno _) = .ok (h, k')) :
      h ≠ .directory := by
    cases ho
    exact nofun
  unfold openText at ho
  extract_lets opened taken at ho
  split at ho
  · cases ho
  · rw [if_pos hw] at ho
    cases ho
  · cases ho
    exact nofun
  · cases ho
    exact nofun
  · cases ho
  · split at ho
    · cases ho
    · split at ho
      · cases ho
      · exact hopen _ _ ho
  · split at ho
    · cases ho
    · split at ho
      · exact hopen _ _ ho
      · exact hopen _ _ ho

/-- A system that has been given a file to write to under a handle: what was open is open still, and
what has been opened has a number of its own. -/
structure Acquires (k : Kernel) (h : Handle) (k' : Kernel) : Prop where
  tasks : k'.tasks = k.tasks
  spilled : k'.spilled = k.spilled
  pipes : k'.pipes = k.pipes
  patience : k'.patience = k.patience
  nextPid : k'.nextPid = k.nextPid
  nextNumber : k.nextNumber ≤ k'.nextNumber
  takes : ∀ x, k.Takes x → (k'.hold h).Takes x
  taken : (k'.hold h).Takes h
  shape : h = .null ∨ ∃ n, h = .file n ∧ n < k'.nextNumber
  fresh : ∀ n, h = .file n → n = k.nextNumber

theorem acquires_openText {k k' : Kernel} {base : Place} {text : String} {mode : OpenMode}
    {h : Handle} (ho : k.openText base text (World.accessOf mode) = .ok (h, k')) :
      k.Acquires h k' := by
  have hdirectory := openText_ne_directory (World.write_accessOf mode) ho
  obtain ⟨rfl, hnull | hdir, -⟩ | ⟨found, node, files, content, executable, -, rfl, rfl, -⟩ :=
    openText_accessOf ho
  · subst hnull
    refine ⟨rfl, rfl, rfl, rfl, rfl, Nat.le_refl _, fun x hx => ?_, trivial, .inl rfl, by simp⟩
    cases x with
    | file n => exact ⟨List.mem_cons_of_mem _ hx.1, hx.2⟩
    | _ => exact hx
  · exact absurd hdir hdirectory
  · refine ⟨rfl, rfl, rfl, rfl, rfl, Nat.le_succ _, fun x hx => ?_,
      ⟨List.mem_cons_self, _, List.lookup_cons_self, rfl⟩,
      .inr ⟨_, rfl, Nat.lt_succ_self _⟩, fun n heq => (Handle.file.inj heq).symm⟩
    cases x with
    | file n =>
      refine ⟨List.mem_cons_of_mem _ hx.1, ?_⟩
      obtain ⟨f, hf, hwritable⟩ := hx.2
      by_cases hn : n = k.nextNumber
      · exact ⟨_, by rw [hn]; exact List.lookup_cons_self, rfl⟩
      · have hne : (n == k.nextNumber) = false := by simpa using hn
        refine ⟨f, ?_, hwritable⟩
        change List.lookup n ((k.nextNumber, _) :: k.opened) = some f
        rw [List.lookup_cons, hne]
        exact hf
    | _ => exact hx

end Kernel

namespace Pipeline

variable {s s' s'' : Session} {o o' : Outlets}

/-- A session with sinks, before which files have been opened that are written to, each one by
itself. -/
structure Opens (s s' : Session) (o : Outlets) : Prop where
  session : ∃ k, s' = s.onKernel fun _ => k
  tasks : s'.world.tasks = s.world.tasks
  spilled : s'.world.spilled = s.world.spilled
  pipes : s'.world.pipes = s.world.pipes
  patience : s'.world.patience = s.world.patience
  nextPid : s'.world.nextPid = s.world.nextPid
  screens : ∀ c, o.screenSink c = { stream := { channel := c, direct := s.direct } }
  files : ∀ c sink, o.heldSink (.file c) = some sink → ∃ h, sink = .ofHandle h ∧
    s'.world.toKernel.Takes h ∧ (h = .null ∨ ∃ n, h = .file n ∧ n < s'.world.nextNumber)
  next : o.next = none
  apart : ∀ h, o.heldSink (.file .out) = some (.ofHandle h) →
    o.heldSink (.file .err) = some (.ofHandle h) → h = .null

namespace Opens

theorem refl (s : Session) : Opens s s (Outlets.ofSession s) where
  session := ⟨s.world.toKernel, rfl⟩
  tasks := rfl
  spilled := rfl
  pipes := rfl
  patience := rfl
  nextPid := rfl
  screens c := by cases c <;> rfl
  files c sink h := by cases c <;> cases h
  next := rfl
  apart h hout := by cases hout

/-- One more file is opened. -/
theorem openTarget (h : Opens s s' o) {c : Channel} {target : FileTarget}
    (hnone : ∀ c', c' = .err ∨ c' = c → o.heldSink (.file c') = none)
    (ho : Pipeline.openTarget s' c target o = .ok (o', s'')) : Opens s s'' o' := by
  obtain ⟨x, k, hopen, rfl, rfl⟩ := openTarget_eq_ok ho
  obtain ⟨k₀, rfl⟩ := h.session
  have hacquires := Kernel.acquires_openText hopen
  have hheld (c' : Channel) : (o.setHeldSink (.file c) (.ofHandle x)).heldSink (.file c') =
      if c' = c then some (.ofHandle x) else o.heldSink (.file c') := by
    by_cases hc : c' = c
    · rw [if_pos hc, hc, Outlets.heldSink_setHeldSink_self]
    · rw [if_neg hc, Outlets.heldSink_setHeldSink_of_ne (by simpa using hc)]
  have hold (c' : Channel) (sink : HeldSink) (hs : o.heldSink (.file c') = some sink) :
      ∃ h, sink = .ofHandle h ∧
      (k.hold x).Takes h ∧ (h = .null ∨ ∃ n, h = .file n ∧ n < k₀.nextNumber) := by
    obtain ⟨y, hy, hyt, hyn⟩ := h.files c' sink hs
    exact ⟨y, hy, hacquires.takes y hyt, hyn⟩
  refine ⟨⟨k.hold x, rfl⟩, hacquires.tasks.trans h.tasks, hacquires.spilled.trans h.spilled,
    hacquires.pipes.trans h.pipes, hacquires.patience.trans h.patience,
      hacquires.nextPid.trans h.nextPid,
    fun c' => ?_, fun c' sink hs => ?_, ?_, fun y hout herr => ?_⟩
  · rw [Outlets.screenSink_setHeldSink]
    exact h.screens c'
  · rw [hheld] at hs
    split at hs
    · cases hs
      exact ⟨x, rfl, hacquires.taken, hacquires.shape⟩
    · obtain ⟨y, hy, hyt, hyn⟩ := hold c' sink hs
      exact ⟨y, hy, hyt, hyn.imp_right (Exists.imp fun _ hn =>
        hn.imp_right (Nat.lt_of_lt_of_le · hacquires.nextNumber))⟩
  · cases c <;> exact h.next
  · rw [hheld] at hout herr
    cases c with
    | out =>
      rw [if_neg (by simp), hnone .err (.inl rfl)] at herr
      cases herr
    | err =>
      rw [if_pos rfl] at herr
      rw [if_neg (by simp)] at hout
      obtain rfl : x = y := by simpa [Sink.ofHandle] using herr
      obtain ⟨z, hz, -, hzn⟩ := hold .out _ hout
      obtain rfl : x = z := by simpa [Sink.ofHandle] using hz
      refine hzn.resolve_right ?_
      rintro ⟨n, heq, hlt⟩
      exact absurd (hacquires.fresh n heq) (Nat.ne_of_lt hlt)

/-- What is held for files is no end of a pipe. -/
theorem no_end (h : Opens s s' o) {c : Channel} {x : Handle} (hx : x ∈ o.grippedAt (.file c)) :
    (∀ m, x ≠ .reader m) ∧ ∀ m, x ≠ .writer m := by
  unfold Outlets.grippedAt at hx
  cases hsink : o.heldSink (.file c) with
  | none => simp [hsink] at hx
  | some sink =>
    obtain ⟨h, rfl, -, hshape⟩ := h.files c sink hsink
    obtain rfl : x = h := by simpa [hsink, Sink.gripped, Sink.ofHandle] using hx
    obtain rfl | ⟨m, rfl, -⟩ := hshape <;> simp

end Opens

/-- The files of the last stage are open. -/
theorem opens_openRedirections {redirections : Redirections} {wiring : Wiring}
    (ho : openRedirections s redirections = (.ok wiring, s')) : Opens s s' wiring.outlets := by
  have herrors {s₁ : Session} {o₁ : Outlets} {err : Option ErrorTarget} {out : Outlet}
      (h : Opens s s₁ o₁)
      (hnone : o₁.heldSink (.file .err) = none) (ho : openErrors s₁ err out o₁ = (.ok wiring, s')) :
      Opens s s' wiring.outlets := by
    unfold openErrors at ho
    split at ho
    · cases ho
      exact h
    · cases ho
      exact h
    · split at ho
      · cases ho
      · next htarget =>
        cases ho
        refine h.openTarget (fun c' hc => ?_) htarget
        rcases hc with rfl | rfl <;> exact hnone
  have hfirst := Opens.refl s
  unfold openRedirections at ho
  split at ho
  · exact herrors hfirst rfl ho
  · split at ho
    · cases ho
    · next htarget =>
      obtain ⟨x, k, -, rfl, -⟩ := openTarget_eq_ok htarget
      refine herrors (hfirst.openTarget (fun c' hc => ?_) htarget) rfl ho
      rcases hc with rfl | rfl <;> rfl

namespace Run

/-- The couplers are pipes one after the other, and nothing is in them. -/
theorem addPipes_eq (n : Nat) (k : Kernel) : (addPipes n k).1 = List.range' k.nextNumber n ∧
    k.Idles (addPipes n k).2 := by
  induction n generalizing k with
  | zero => exact ⟨rfl, .refl k⟩
  | succ n ih =>
    have hpipe : k.Idles ((k.addPipe.2.hold (.reader k.nextNumber)).hold
        (.writer k.nextNumber)) := by
      refine ⟨rfl, rfl, rfl, rfl, rfl, rfl, Nat.le_succ _, fun x hx => ?_, fun m hm => ?_⟩
      · cases x with
        | file m => exact ⟨List.mem_cons_of_mem _ (List.mem_cons_of_mem _ hx.1), hx.2⟩
        | _ => exact hx
      · unfold Kernel.pipeContent at hm ⊢
        simp only [Kernel.hold, Kernel.addPipe, List.lookup_cons]
        split
        · rfl
        · exact hm
    obtain ⟨hpipes, hidles⟩ :=
      ih ((k.addPipe.2.hold (.reader k.nextNumber)).hold (.writer k.nextNumber))
    exact ⟨congrArg (k.nextNumber :: ·) hpipes, hpipe.trans hidles⟩

/-- The couplers of a run at its start are the pipes of a chain. -/
theorem couples_init (s : Session) {stages : List Stage} (hs : stages.length ≠ 1) (wiring : Wiring)
    (port : Port) (merges : Bool) :
    Couples ⟨s.world.nextNumber, stages.length, port, merges⟩ (init s stages wiring) := by
  obtain ⟨hpipes, -⟩ := addPipes_eq (stages.length - 1) s.world.toKernel
  have hcoupler (i : Nat) (hi : i + 1 < stages.length) :
      (init s stages wiring).couplers[i]? = some (s.world.nextNumber + i) := by
    change (addPipes (stages.length - 1) s.world.toKernel).1[i]? = _
    rw [hpipes, List.getElem?_range' (by omega), Nat.one_mul]
  refine ⟨rfl, hs, fun i hi => ?_, fun i hi => ?_⟩ <;> simp [endHandle, hcoupler i hi]

/-- A run at its start. -/
theorem starting_init (hs : s.AtRest) {wiring : Wiring} (ho : Opens s s' wiring.outlets) (C : Chain)
    (stages : List Stage) : Starting C (init s' stages wiring) 0 (init s' stages wiring) := by
  obtain ⟨-, hidles⟩ := addPipes_eq (stages.length - 1) s'.world.toKernel
  obtain ⟨k, rfl⟩ := ho.session
  have htasks : (init (s.onKernel fun _ => k) stages wiring).kernel.tasks = [] :=
    hidles.tasks.trans (ho.tasks.trans hs.tasks)
  refine {
    fresh := ⟨hidles.spilled.trans (ho.spilled.trans hs.spilled), ho.screens, fun c sink hsink =>
      ?_, ho.next⟩
    beside := .refl _
    shown := rfl
    files := rfl
    opened := rfl
    patience := rfl
    nextPid := ?_
    nextNumber := Nat.le_refl _
    pipes := fun m => hidles.pipes m ?_
    wiring := rfl
    couplers := rfl
    stages := rfl
    crew := .init htasks
    jobs := by simp [htasks]
    pump := rfl
    streams := by simp [init] }
  · obtain ⟨h, hh, htakes, -⟩ := ho.files c sink hsink
    exact ⟨h, hh, hidles.takes h htakes⟩
  · have hpid := hidles.nextPid.trans ho.nextPid
    change 0 < (addPipes (stages.length - 1) k).2.nextPid
    exact Nat.lt_of_lt_of_eq hs.nextPid hpid.symm
  · have hnone : k.pipes = [] := ho.pipes.trans hs.pipes
    change k.pipeContent m = _
    simp [Kernel.pipeContent, hnone]

end Run

end Pipeline

end CommandShell

/-! ### A run whose programs have been started -/

namespace CommandShell.Pipeline.Run

variable {C : Chain} {s s' : Session} {r r' r₀ : Run} {stages : List Stage} {n : Nat}

/-- Of the pipes of a chain the shell holds the writing ends behind the builtins from a stage on. -/
structure Holds (C : Chain) (n : Nat) (r : Run) : Prop where
  reader : ∀ m, .reader m ∉ r.kernel.held
  writer : ∀ i, i + 1 < C.length →
    (.writer (C.base + i) ∈ r.kernel.held ↔ n ≤ i ∧ isBuiltinAt r.stages i)
  single : ∀ i, r.kernel.held.count (.writer (C.base + i)) ≤ 1

/-- The ends of pipes that the shell holds when the programs have been started. -/
theorem holds_spawnAll {redirections : Redirections} {wiring : Wiring} (hs : s.AtRest)
    (hopen : openRedirections s redirections = (.ok wiring, s'))
    (hspawn : spawnAll stages.zipIdx (init s' stages wiring) = (none, r)) (hC : Couples C r)
    (hstages : r.stages = stages) : Holds C 0 r := by
  have ho := opens_openRedirections hopen
  have hfiles := filesHeld_openRedirections s redirections
  rw [hopen, hs.held] at hfiles
  obtain ⟨hperm, hnext⟩ := hfiles
  have haccounted := (accounted_init stages hperm hnext).spawnAll stages.zipIdx
  have hholding : (init s' stages wiring).toLedger.Holding (fun _ => True) (startEnds stages 0) :=
    (Ledger.holding_ofStages _ stages).congr startEnds_zero
  have hinit : (init s' stages wiring).stages = stages := rfl
  obtain ⟨P, hholding, hP⟩ := holding_starts hinit hholding hspawn
  obtain rfl := hP rfl
  rw [hspawn] at haccounted
  have hheld := haccounted.held
  rw [grip, hnext, List.append_nil, List.append_nil] at hheld
  have hmem (x : Handle) (hx : (∃ m, x = .reader m) ∨ ∃ m, x = .writer m) :
      x ∈ r.kernel.held ↔ ∃ e ∈ r.openEnds, r.endHandle e = x := by
    rw [hheld.mem_iff, List.mem_append, List.mem_append, List.mem_map]
    refine or_iff_left ?_
    rintro (hfile | hfile) <;> have hne := ho.no_end hfile <;> obtain ⟨m, rfl⟩ | ⟨m, rfl⟩ := hx
    · exact hne.1 m rfl
    · exact hne.2 m rfl
    · exact hne.1 m rfl
    · exact hne.2 m rfl
  have hknown (e : CouplerEnd) (he : e ∈ r.openEnds) : ∃ i, e = .write i ∧ i + 1 < C.length ∧
      isBuiltinAt stages i := by
    have hcall := (hholding.mem_openEnds e).mp he
    cases e with
    | read i => exact hcall.elim
    | write i => exact ⟨i, rfl, by rw [← hC.length, hstages]; exact hcall.1, hcall.2.2⟩
  have hwriter (i j : Nat) (hi : i + 1 < C.length) :
      r.endHandle (.write i) = .writer (C.base + j) ↔ i = j := by
    rw [hC.write i hi]
    simp
  refine ⟨fun m hm => ?_, fun i hi => ?_, fun i => ?_⟩
  · obtain ⟨e, he, heq⟩ := (hmem _ (.inl ⟨m, rfl⟩)).mp hm
    obtain ⟨i, rfl, hi, -⟩ := hknown e he
    rw [hC.write i hi] at heq
    cases heq
  · rw [hmem _ (.inr ⟨_, rfl⟩), hstages]
    constructor
    · rintro ⟨e, he, heq⟩
      obtain ⟨j, rfl, hj, hb⟩ := hknown e he
      obtain rfl := (hwriter j i hj).mp heq
      exact ⟨Nat.zero_le _, hb⟩
    · rintro ⟨-, hb⟩
      refine ⟨.write i, (hholding.mem_openEnds _).mpr ⟨?_, Nat.zero_le i, hb⟩,
        (hwriter i i hi).mpr rfl⟩
      rwa [← hstages, hC.length]
  · have hnone (c : Channel) :
        (wiring.outlets.grippedAt (.file c)).count (.writer (C.base + i)) = 0 :=
      List.count_eq_zero.mpr fun hmem => (ho.no_end hmem).2 _ rfl
    have hnodup : (r.openEnds.map r.endHandle).Nodup := by
      refine List.Nodup.map_on (fun e he e' he' heq => ?_) haccounted.nodup
      obtain ⟨j, rfl, hj, -⟩ := hknown e he
      obtain ⟨j', rfl, hj', -⟩ := hknown e' he'
      rw [hC.write j' hj'] at heq
      rw [(hwriter j j' hj).mp heq]
    rw [hheld.count_eq, List.count_append, List.count_append, hnone, hnone]
    exact List.nodup_iff_count_le_one.mp hnodup _

/-- A run whose programs are at work as a chain, when the builtins before a stage have run. -/
structure Drives (C : Chain) (before : Bytes) (o : Outlook) (n : Nat) (r : Run) : Prop where
  shows : C.Shows before o r.session
  patience : C.total o < r.kernel.patience
  interrupts : r.session.interrupts = []
  poised : r.wiring.outlets.Poised (fun _ => False) r.session
  couples : Couples C r
  holds : Holds C n r
  programs : ∀ i, C.Manned r.kernel i → ¬ isBuiltinAt r.stages i
  jobs : ∀ t ∈ r.kernel.tasks, ∀ i err, C.Mans i err t → ∃ job ∈ r.jobs, job.pid = t.pid
  pump : r.pump = { queue := [], active := r.streams.length }
  taps : Taps C.port r.streams

end CommandShell.Pipeline.Run

namespace CommandShell.Pipeline

/-- What the program of a stage writes when it has read some input. -/
theorem Produces.returns {s : Session} {stage : Stage} {writes : List Builtin.Emission}
    {input : Bytes} {m : Nat} {output : Channel → Bytes} {process : Process}
    (h : Produces s stage writes input m output) (hl : Launches s stage process) :
      process.Returns m input output := by
  obtain ⟨path, ht, hstart⟩ := hl
  cases h <;> simp_all

/-- What all stages write is still to come, except for what the last one writes if it has no
program. -/
structure Forthcoming (C : Chain) (output : Nat → Channel → Bytes) (work : Nat → Nat) (k : Kernel)
    (o : Outlook) : Prop where
  earlier : ∀ i, i + 1 < C.length → o.coming i = output i
  last : ∀ i, i + 1 = C.length → C.Manned k i → o.coming i = output i
  silent : ∀ i, i + 1 = C.length → ¬ C.Manned k i → ∀ c, o.coming i c = []
  work : o.work = work

namespace Run

variable {C : Chain} {r r₀ : Run} {said : Bytes} {replies : Nat → List Builtin.Emission}
  {output : Nat → Channel → Bytes} {work : Nat → Nat} {o : Outlook}

namespace Staffed

/-- The programs that have been started are at work as a chain. -/
theorem flows (h : Staffed C said r₀ r) (hh : Holds C 0 r)
    (hy : Yields r₀.session replies r₀.stages output work) (ho : Forthcoming C output work r.kernel
      o) {shown bytes : Bytes} (hlanded : r.kernel.Landed C.port bytes)
    (harrived : o.arrived = shown ++ bytes) : C.Flows shown o r.kernel where
  tasks t ht := by
    obtain ⟨i, stage, err, hi, hstage, hp, hm, htakes, hmerged, happart⟩ := h.crew.tasks t ht
    have hmanned : C.Manned r.kernel i := ⟨t, ht, err, hm⟩
    have hcoming : o.coming i = output i := by
      rcases Nat.lt_or_eq_of_le hi with hlt | heq
      · exact ho.earlier i hlt
      · exact ho.last i heq hmanned
    have hsupply : C.supply o r.kernel i = inputOf [] output i := by
      cases i with
      | zero => rfl
      | succ j =>
        simp only [Chain.supply, h.pipes, inputOf, ho.earlier j hi]
        rfl
    refine .inl ⟨i, err, hm, hi, htakes, hmerged, happart, ?_⟩
    rw [hsupply, hcoming, ho.work]
    exact (hy.produces i stage hstage).returns hp
  pids := h.crew.pids
  seats := h.crew.seats
  reading _ := hh.reader _
  dry i hi hn hheld _ := by
    have hlen : i < r₀.stages.length := by
      have hlength := h.couples.length
      rw [h.stages] at hlength
      omega
    obtain ⟨stage, hstage⟩ : ∃ stage, r₀.stages[i]? = some stage :=
      ⟨_, List.getElem?_eq_getElem hlen⟩
    rw [ho.earlier i hi]
    refine (hy.produces i stage hstage).silent ?_ fun path process ht hstart => ?_
    · refine Bool.eq_false_iff.mpr fun hb =>
        hheld ((hh.writer i hi).mpr ⟨Nat.zero_le i, stage, ?_, hb⟩)
      rwa [h.stages]
    · exact hn (h.crew.manned i stage process (by omega) hstage ⟨path, ht, hstart⟩)
  done i hi hn c := ho.silent i hi hn c
  port := h.port
  landed := ⟨bytes, hlanded, harrived⟩

/-- No builtin is run by a program. -/
theorem programs (h : Staffed C said r₀ r) (i : Nat) (hm : C.Manned r.kernel i) :
    ¬ isBuiltinAt r.stages i := by
  rintro ⟨stage, hstage, hb⟩
  obtain ⟨t, ht, err, hmans⟩ := hm
  obtain ⟨j, stage', err', -, hstage', ⟨path, htarget, -⟩, hmans', -⟩ := h.crew.tasks t ht
  obtain ⟨rfl, -⟩ := hmans.unique hmans'
  rw [h.stages, hstage'] at hstage
  obtain rfl := Option.some.inj hstage
  simp [Stage.isBuiltin, htarget] at hb

/-- A run all of whose programs have been started drives a chain. -/
theorem drives (h : Staffed C said r₀ r) (hh : Holds C 0 r)
    (hy : Yields r₀.session replies r₀.stages output work)
    (ho : Forthcoming C output work r.kernel o) (hlanded : r₀.kernel.Landed C.port o.arrived)
    (hlive : C.Live r.session → o.arrived = []) (haside : C.port ≠ .tap (.screen .err))
    (hpatience : C.total o < r₀.kernel.patience) (hinterrupts : r₀.session.interrupts = []) :
    Drives C (r₀.session.screen.bytesOn .out ++ said) o 0 r := by
  have hvisible : C.visible o r.session = [] := by
    unfold Chain.visible
    split
    · next hl => exact hlive hl
    · rfl
  refine {
    shows := ⟨?_, haside, fun _ => ?_⟩
    patience := h.patience ▸ hpatience
    interrupts := h.beside.interrupts.trans hinterrupts
    poised := h.fresh.poised
    couples := h.couples
    holds := hh
    programs := h.programs
    jobs t ht _ _ _ := h.jobs t ht
    pump := h.pump
    taps := h.taps }
  · rw [hvisible]
    exact h.flows hh hy ho (h.landed _ hlanded) rfl
  · rw [hvisible, List.append_nil, h.shown]

end Staffed

end Run

end CommandShell.Pipeline
