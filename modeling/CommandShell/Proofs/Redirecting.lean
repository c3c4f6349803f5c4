import CommandShell.Proofs.Spool.Wiring
import CommandShell.Proofs.Unredirected

/-!
# Where the output of a pipeline goes

A file that a channel of the last stage is redirected to holds in the end what it held before, if
the output is added to it, and then exactly what the last stage has written to it, in that order.
That is so for a builtin, for a program and what it starts, and for what the shell says of a command
that is missing or cannot be started.

## Main statements

- `Pipeline.run_files`: what a file holds when the pipeline has come to its end.
-/

namespace CommandShell.Pipeline

open FileSystem (Leads IsPlain)

namespace Run

variable {capture : Builtin.Capture}

theorem spawnAll_cons_eq_none {stage : Stage} {i : Nat} {rest : List (Stage × Nat)} {r r' : Run} :
    spawnAll ((stage, i) :: rest) r = (none, r') ↔
      ∃ r₁, r.spawn i stage = (none, r₁) ∧ spawnAll rest r₁ = (none, r') := by
  simp only [spawnAll]
  rcases r.spawn i stage with ⟨_ | halt, r₁⟩ <;> simp

theorem spawnAll_append_eq_none {indexed more : List (Stage × Nat)} {r r' : Run} :
    spawnAll (indexed ++ more) r = (none, r') ↔
      ∃ r₁, spawnAll indexed r = (none, r₁) ∧ spawnAll more r₁ = (none, r') := by
  induction indexed generalizing r with
  | nil => simp [spawnAll]
  | cons x rest ih =>
    obtain ⟨stage, i⟩ := x
    simp only [List.cons_append, spawnAll_cons_eq_none, ih]
    constructor
    · rintro ⟨r₁, hfirst, r₂, hrest, hmore⟩
      exact ⟨r₂, ⟨r₁, hfirst, hrest⟩, hmore⟩
    · rintro ⟨r₂, ⟨r₁, hfirst, hrest⟩, hmore⟩
      exact ⟨r₁, hfirst, r₂, hrest, hmore⟩

theorem runBuiltins_cons_eq_none {stage : Stage} {i : Nat} {rest : List (Stage × Nat)}
    {r r' : Run} : runBuiltins capture ((stage, i) :: rest) r = (none, r') ↔ ∃ r₁,
      (match stage.target with
        | .program _ => (none, r)
        | .builtin b =>
          r.runBuiltin capture i stage b) = (none, r₁) ∧
            runBuiltins capture rest r₁ = (none, r') := by
  simp only [runBuiltins]
  cases stage.target with
  | program path => simp
  | builtin b =>
    dsimp only
    rcases r.runBuiltin capture i stage b with ⟨_ | halt, r₁⟩ <;> simp

theorem runBuiltins_append_eq_none {indexed more : List (Stage × Nat)} {r r' : Run} :
    runBuiltins capture (indexed ++ more) r = (none, r') ↔
      ∃ r₁, runBuiltins capture indexed r = (none, r₁) ∧
        runBuiltins capture more r₁ = (none, r') := by
  induction indexed generalizing r with
  | nil => simp [runBuiltins]
  | cons x rest ih =>
    obtain ⟨stage, i⟩ := x
    simp only [List.cons_append, runBuiltins_cons_eq_none, ih]
    constructor
    · rintro ⟨r₁, hfirst, r₂, hrest, hmore⟩
      exact ⟨r₂, ⟨r₁, hfirst, hrest⟩, hmore⟩
    · rintro ⟨r₂, ⟨r₁, hfirst, hrest⟩, hmore⟩
      exact ⟨r₁, hfirst, r₂, hrest, hmore⟩

end Run

section LastWrites

variable (capture : Builtin.Capture) (opened : Session) (wiring : Wiring) (earlier : List Stage)
  (last : Stage) (c : Channel) (n : Nat) (place : Place) (final : Kernel)

/-- The run of a pipeline at its start, when the files of the last stage are open. -/
def atStart : Run := Run.init opened (earlier ++ [last]) wiring

/-- What the last stage of a pipeline writes to the file that a channel is redirected to, which is
open under a number: the texts of a builtin or of the shell that are meant for the file, or what a
program, and whatever it starts, writes there in the course of the system from its start to the
end. -/
inductive LastWrites : Bytes → Prop where
  | builtin {b : Builtin} {r r' r'' : Run} (hb : last.target = .builtin b)
    (hspawn : Run.spawnAll earlier.zipIdx (atStart opened wiring earlier last) = (none, r))
    (hlast : r.spawn earlier.length last = (none, r'))
    (hrun : Run.runBuiltins capture earlier.zipIdx r' = (none, r'')) :
    LastWrites (last.redirections.filed c
      (b.run capture (r''.log .debug ("builtin " ++ last.command)).session last.args).writes)
  | missing (ht : last.target = .program none) :
    LastWrites (last.redirections.filed c [(.err, last.command ++ ": command not found\n")])
  | refused {path : Path} {r : Run} {e : StartError} (ht : last.target = .program (some path))
    (hspawn : Run.spawnAll earlier.zipIdx (atStart opened wiring earlier last) = (none, r))
    (he : start (r.descriptorsFor earlier.length last.redirections.merges).1.session
      (last.command :: last.args) path = .error e) :
    LastWrites (last.redirections.filed c [(.err, last.command ++ ": " ++ e.error.text ++ "\n")])
  | program {path : Path} {r r' : Run} {descriptors : List (Nat × Handle)}
      {streams : List (Nat × Outlet)}
    {process : Process} {bytes : Bytes} (ht : last.target = .program (some path))
    (hspawn : Run.spawnAll earlier.zipIdx (atStart opened wiring earlier last) = (none, r))
    (hroute : r.descriptorsFor earlier.length last.redirections.merges = (r', descriptors, streams))
    (hstart : start r'.session (last.command :: last.args) path = .ok process)
    (hnew : ∀ t ∈ r'.kernel.tasks, ∀ x ∈ t.descriptors, x.2 ≠ .file n)
    (hout : descriptors.lookup 1 = some (.file n) ↔ last.redirections.route .out = .file c)
    (herr : descriptors.lookup 2 = some (.file n) ↔ last.redirections.route .err = .file c)
    (hcourse : Kernel.Course n place (r'.kernel.spawn process descriptors).2 bytes final) :
    LastWrites bytes

end LastWrites

variable {capture : Builtin.Capture} {s opened : Session} {wiring : Wiring} {earlier : List Stage}
  {last : Stage} {c : Channel}

section Wired

variable {d : Spool} {content total : Bytes} {r : Run}

theorem isLast_atStart : (atStart opened wiring earlier last).isLast earlier.length = true := by
  simp [atStart, Run.isLast, Run.init, Ledger.ofStages]

/-- The last stage writes where its redirections say. -/
theorem filed_of_keeps
    (hw : wiring.out = last.redirections.route .out ∧ wiring.err = last.redirections.route .err)
    (hk : (atStart opened wiring earlier last).Keeps r) (c : Channel)
    (writes : List Builtin.Emission) :
    r.filed earlier.length c writes = last.redirections.filed c writes := by
  have houtlet (channel : Channel) :
      (atStart opened wiring earlier last).outletFor earlier.length channel =
        last.redirections.route channel := by
    cases channel with
    | out => exact (if_pos isLast_atStart).trans hw.1
    | err => exact (if_pos isLast_atStart).trans hw.2
  rw [hk.filed]
  simp only [Run.filed, Redirections.filed, houtlet]

/-- How a pipeline comes to its end: the programs before the last stage have been started, then that
of the last stage; the builtins before the last stage have run, then that of the last stage. -/
theorem runWired_ok {status : Int}
    (h : (runWired capture opened (earlier ++ [last]) wiring).ending = .ok status) :
    ∃ r₁ r₂ r₃ r₄, Run.spawnAll earlier.zipIdx (atStart opened wiring earlier last) = (none, r₁) ∧
      r₁.spawn earlier.length last = (none, r₂) ∧
      Run.runBuiltins capture earlier.zipIdx r₂ = (none, r₃) ∧ (match last.target with
        | .program _ => (none, r₃)
        | .builtin b => r₃.runBuiltin capture earlier.length last b) = (none, r₄) ∧
      (runWired capture opened (earlier ++ [last]) wiring).session = r₄.join.tidy.session := by
  obtain ⟨r₂, hspawn, r₄, hrun, hsession⟩ : ∃ r₂,
      Run.spawnAll (earlier ++ [last]).zipIdx (atStart opened wiring earlier last) =
        (none, r₂) ∧ ∃ r₄,
      Run.runBuiltins capture (earlier ++ [last]).zipIdx r₂ = (none, r₄) ∧
      (runWired capture opened (earlier ++ [last]) wiring).session = r₄.join.tidy.session := by
    unfold runWired at h ⊢
    generalize (earlier ++ [last]).zipIdx = indexed at h ⊢
    dsimp only at h ⊢
    split at h
    · cases h
    · next r₂ hr₂ =>
      split at h
      · next r₄ hr₄ => exact ⟨r₂, hr₂, r₄, hr₄, rfl⟩
      · cases h
      · cases h
  rw [zipIdx_concat] at hspawn hrun
  obtain ⟨r₁, hspawn₁, hspawnLast⟩ := Run.spawnAll_append_eq_none.mp hspawn
  obtain ⟨_, hlast, hnil⟩ := Run.spawnAll_cons_eq_none.mp hspawnLast
  obtain rfl := (Prod.mk.inj hnil).2
  obtain ⟨r₃, hrun₃, hrunLast⟩ := Run.runBuiltins_append_eq_none.mp hrun
  obtain ⟨_, hlast', hnil'⟩ := Run.runBuiltins_cons_eq_none.mp hrunLast
  obtain rfl := (Prod.mk.inj hnil').2
  exact ⟨r₁, _, r₃, _, hspawn₁, hlast, hrun₃, hlast', hsession⟩

theorem mem_stages {x : Stage × Nat} (hx : x ∈ earlier.zipIdx) : x.1 ∈ earlier ++ [last] :=
  List.mem_append_left _ (List.fst_mem_of_mem_zipIdx hx)

/-- The builtins before the last stage have nothing to do with the spool. -/
theorem passes_earlier (h : r.Aside d c) (hk : (atStart opened wiring earlier last).Keeps r)
    (hedits : ∀ stage ∈ earlier ++ [last], stage.Edits d.origin d.place capture opened.environment)
    {r' : Run} (hrun : Run.runBuiltins capture earlier.zipIdx r = (none, r')) :
      r.Passes d c r' := by
  have hlast (x : Stage × Nat) (hx : x ∈ earlier.zipIdx) : r.isLast x.2 = false :=
    (hk.isLast _).trans (isLast_init hx)
  have hpass := h.passes_runBuiltins hlast
    (fun x hx => hk.steady.environment ▸ hedits x.1 (mem_stages hx)) (congrArg Prod.fst hrun)
  rwa [hrun] at hpass

/-- What a spool holds in the end when the last stage is no builtin. -/
theorem exists_finish (h : r.Filing d c total) (hk : (atStart opened wiring earlier last).Keeps r)
    (hedits : ∀ stage ∈ earlier ++ [last], stage.Edits d.origin d.place capture opened.environment)
    {r' : Run} (hrun : Run.runBuiltins capture earlier.zipIdx r = (none, r')) :
    ∃ bytes, r'.join.tidy.kernel.Spools d (total ++ bytes) ∧
      Kernel.Gains d r.kernel bytes r'.join.tidy.kernel := by
  obtain ⟨bytes, hfiling, hgains⟩ := h.passes (passes_earlier h.aside hk hedits hrun)
  obtain ⟨more, hspools, hgains'⟩ := hfiling.finish
  exact ⟨bytes ++ more, by rwa [← List.append_assoc], hgains.trans hgains'⟩

/-- What a spool holds in the end when the shell has written a message for the last stage. -/
theorem spools_message (h : r.Filing d c total) (ha : d.alone)
    (hk : (atStart opened wiring earlier last).Keeps r) (hedits : ∀ stage ∈ earlier ++ [last],
      stage.Edits d.origin d.place capture opened.environment) {r' : Run}
    (hrun : Run.runBuiltins capture earlier.zipIdx r = (none, r')) :
      r'.join.tidy.kernel.Spools d total := by
  obtain ⟨bytes, hspools, hgains⟩ := exists_finish h hk hedits hrun
  rwa [hgains.1 ha, List.append_nil] at hspools

/-- What a spool holds in the end when the last stage is a builtin. -/
theorem spools_builtin
    (hw : wiring.out = last.redirections.route .out ∧ wiring.err = last.redirections.route .err)
    (h : r.Filing d c total) (ha : d.alone) (hk : (atStart opened wiring earlier last).Keeps r)
    (hedits : ∀ stage ∈ earlier ++ [last], stage.Edits d.origin d.place capture opened.environment)
    {b : Builtin} (hb : last.target = .builtin b) {r' r'' : Run}
    (hrun : Run.runBuiltins capture earlier.zipIdx r = (none, r'))
    (hlast : r'.runBuiltin capture earlier.length last b = (none, r'')) :
    r''.join.tidy.kernel.Spools d (total ++ last.redirections.filed c
      (b.run capture (r'.log .debug ("builtin " ++ last.command)).session last.args).writes) := by
  have hpass := passes_earlier h.aside hk hedits hrun
  have hk' := hk.trans hpass.keeps
  have hfiling := (h.passes_alone ha hpass).runBuiltin ha ((hk'.isLast _).trans isLast_atStart)
    (hk'.steady.environment ▸ hedits last (by simp)) hb (congrArg Prod.fst hlast)
  rw [filed_of_keeps hw hk', hlast] at hfiling
  obtain ⟨bytes, hspools, hgains⟩ := hfiling.finish
  rwa [hgains.1 ha, List.append_nil] at hspools

/-- When the programs before the last stage have been started, nothing has been written to the
spool. -/
theorem filing_earlier (ha : d.alone) (hopened : Spooled d c content s opened wiring.outlets)
    (hstarts : ∀ stage ∈ earlier ++ [last], stage.Starts d.origin d.place opened.machine)
    (hspawn : Run.spawnAll earlier.zipIdx (atStart opened wiring earlier last) = (none, r)) :
    (atStart opened wiring earlier last).Keeps r ∧ r.Filing d c content ∧ r.Drained c := by
  obtain ⟨hstart, hdrained⟩ := filing_init ha hopened (earlier ++ [last])
  change (atStart opened wiring earlier last).Filing d c content at hstart
  change (atStart opened wiring earlier last).Drained c at hdrained
  have hpass : (atStart opened wiring earlier last).Passes d c r := by
    have hpass := hstart.aside.passes_spawnAll (fun x (hx : x ∈ earlier.zipIdx) => isLast_init hx)
      fun x hx => hstarts x.1 (mem_stages hx)
    rwa [hspawn] at hpass
  exact ⟨hpass.keeps, hstart.passes_alone ha hpass, hpass.drained hdrained⟩

/-- What a file holds when a pipeline has come to its end. -/
theorem files_runWired {status : Int}
    (hw : wiring.out = last.redirections.route .out ∧ wiring.err = last.redirections.route .err)
    (ha : d.alone) (hopened : Spooled d c content s opened wiring.outlets)
    (hstarts : ∀ stage ∈ earlier ++ [last], stage.Starts d.origin d.place opened.machine)
    (hedits : ∀ stage ∈ earlier ++ [last], stage.Edits d.origin d.place capture opened.environment)
    (hended : (runWired capture opened (earlier ++ [last]) wiring).ending = .ok status) :
    ∃ bytes, LastWrites capture opened wiring earlier last c d.number d.place
        (runWired capture opened (earlier ++ [last]) wiring).session.world.toKernel bytes ∧
      (runWired capture opened (earlier ++ [last]) wiring).session.world.files.get? d.place =
        some (.file (pack (content ++ bytes)) d.executable) := by
  obtain ⟨r₁, r₂, r₃, r₄, hspawn, hspawnLast, hrun, hrunLast, hsession⟩ := runWired_ok hended
  rw [hsession]
  obtain ⟨hk₁, hfiling₁, hdrained₁⟩ := filing_earlier ha hopened hstarts hspawn
  have hlast₁ : r₁.isLast earlier.length = true := (hk₁.isLast _).trans isLast_atStart
  cases htarget : last.target with
  | builtin b =>
    obtain rfl : r₁.closeEnds (Run.inputEnds earlier.length) = r₂ := by
      simpa [Run.spawn, htarget] using hspawnLast
    have hclose := hfiling₁.aside.passes_closeEnds (Run.inputEnds earlier.length)
    rw [htarget] at hrunLast
    have hspools :=
      spools_builtin hw (hfiling₁.passes_alone ha hclose) ha (hk₁.trans hclose.keeps) hedits htarget
      hrun hrunLast
    exact ⟨_, .builtin htarget hspawn hspawnLast hrun, hspools.file⟩
  | program path =>
    obtain rfl : r₃ = r₄ := by simpa [htarget] using hrunLast
    cases path with
    | none =>
      obtain rfl : (r₁.notFound earlier.length last).closeEnds
          (Run.inputEnds earlier.length ++ r₁.outputEnds earlier.length) = r₂ := by
        simpa [Run.spawn, htarget] using hspawnLast
      have hmissing := hfiling₁.notFound ha earlier.length last
      rw [filed_of_keeps hw hk₁] at hmissing
      have hclose := hmissing.aside.passes_closeEnds
        (Run.inputEnds earlier.length ++ r₁.outputEnds earlier.length)
      have hk₂ := (hk₁.trans (r₁.keeps_notFound earlier.length last)).trans hclose.keeps
      exact ⟨_, .missing htarget,
        (spools_message (hmissing.passes_alone ha hclose) ha hk₂ hedits hrun).file⟩
    | some path =>
      have hspawnLast' : r₁.spawnProgram earlier.length last path = (none, r₂) := by
        simpa [Run.spawn, htarget] using hspawnLast
      have hout₁ : r₁.wiring.out = last.redirections.route .out := hk₁.out.trans hw.1
      have herr₁ : r₁.wiring.err = last.redirections.route .err := hk₁.err.trans hw.2
      have hmerges (hm : last.redirections.merges = true) : r₁.wiring.err = r₁.wiring.out := by
        rw [hout₁, herr₁, Redirections.route_of_merges hm]
      obtain ⟨hkeeps, hspawned⟩ := hfiling₁.spawnProgram ha hdrained₁ hlast₁ htarget
        (hk₁.steady.machine ▸ hstarts last (by simp)) hmerges (congrArg Prod.fst hspawnLast')
      obtain ⟨hrouted, -, -, hout, herr, -⟩ := hfiling₁.descriptorsFor ha hlast₁ hmerges
      rw [hspawnLast'] at hkeeps hspawned
      have hk₂ := hk₁.trans hkeeps
      obtain ⟨e, he, hrefused⟩ | ⟨process, bytes, hprocess, hshared, hcourse⟩ := hspawned
      · rw [filed_of_keeps hw hk₁] at hrefused
        exact ⟨_, .refused htarget hspawn he, (spools_message hrefused ha hk₂ hedits hrun).file⟩
      · obtain ⟨more, hspools, -, hgains⟩ := exists_finish hshared hk₂ hedits hrun
        obtain ⟨_, hk⟩ := hrouted.aside.spools
        refine ⟨bytes ++ more, .program htarget hspawn rfl hprocess (fun t ht =>
          (hk.tasks t ht).apart ha) ?_ ?_ (hcourse.trans (hgains.resolve_left id)), ?_⟩
        · rwa [hout₁] at hout
        · rwa [herr₁] at herr
        · rw [← List.append_assoc]
          exact hspools.file

end Wired

/-- Nobody writes to a place but through the files that the last stage is given: no process does and
none is started that does, no file is open there for writing, and no builtin of the stages touches
it by itself. -/
structure Unshared (capture : Builtin.Capture) (s : Session) (stages : List Stage)
    (place : Place) : Prop where
  spares : s.world.toKernel.Spares s.world.files place
  starts : ∀ stage ∈ stages, stage.Starts s.world.files place s.machine
  edits : ∀ stage ∈ stages, stage.Edits s.world.files place capture s.environment

/-- When a pipeline has come to its end, the file that a channel of the last stage is redirected to
holds what it held before, if the output is added, and then what the last stage has written to it.
Output goes to its file or else to the screen, and errors go to theirs, or where the output goes, or
else to the screen. The redirections of the stages before make no difference. -/
theorem run_files {target : FileTarget} {place : Place} {status : Int}
    (ht : last.redirections.target? c = some target) (hplace : target.LeadsTo s place)
    (hplain : IsPlain (s.world.files.get? place))
    (hother : ∀ c' t, c' ≠ c → last.redirections.target? c' = some t → ∃ place',
      t.LeadsTo s place' ∧ place' ≠ place)
    (hunshared : Unshared capture s (earlier ++ [last]) place)
    (hopen : openRedirections s last.redirections = (.ok wiring, opened))
    (hended : (run capture s (earlier ++ [last])).ending = .ok status) :
    (wiring.out = last.redirections.route .out ∧ wiring.err = last.redirections.route .err) ∧
    (∃ n executable bytes, wiring.outlets.heldSink (.file c) = some (Sink.ofHandle (.file n)) ∧
      LastWrites capture opened wiring earlier last c n place
        (run capture s (earlier ++ [last])).session.world.toKernel bytes ∧
      (run capture s (earlier ++ [last])).session.world.files.get? place = some (.file
        (pack ((if target.mode = .append then FileSystem.held (s.world.files.get? place) else []) ++
          bytes))
        executable)) ∧
    run capture s (earlier.map Stage.unredirected ++ [last]) =
      run capture s (earlier ++ [last]) := by
  have hwiring := route_openRedirections hopen
  have hrun : run capture s (earlier ++ [last]) =
      runWired capture opened (earlier ++ [last]) wiring := by
    unfold run
    simp only [List.getLast?_concat, hopen]
  obtain ⟨d, horigin, rfl, halone, hspooled⟩ :=
    spooled_openRedirections ht hunshared.spares hplain hplace hother hopen
  have hsteady := hspooled.steady
  rw [hrun] at hended
  obtain ⟨bytes, hwrites, hfile⟩ := files_runWired hwiring halone hspooled
    (hsteady.machine ▸ horigin ▸ hunshared.starts)
      (hsteady.environment ▸ horigin ▸ hunshared.edits) hended
  refine ⟨hwiring, ⟨d.number, d.executable, bytes, hspooled.sink, ?_, ?_⟩,
    run_unredirected capture s earlier last⟩
  · rw [hrun]
    exact hwrites
  · rw [hrun]
    exact hfile

/-- A session in whose directory there is a file with one letter. -/
def lettered : Session :=
  { cwd := Path.ofParts [], machine := ⟨fun _ _ _ => .error .notFound⟩,
    world := { files := { nodes := [(["f"], .file (pack (Utf8.encode "a")) false)] } } }

/-- A command that is missing, with a file for its errors. -/
def stray : Stage :=
  { command := "x", args := [], target := .program none, text := "x 2> f",
    redirections := { err := some (.file ⟨.truncate, "f"⟩) } }

/-- A greeting that is added to a file, errors and all. -/
def greeting : Stage :=
  { command := "echo", args := ["hi"], target := .builtin .echo, text := "echo hi 2>&1 >> f",
    redirections := { out := some ⟨.append, "f"⟩, err := some .merge } }

/-- The session when the file of the greeting is open. -/
def greeted : Session := lettered.onKernel fun k =>
  (k.addOpened { place := ["f"], append := true, readable := false, writable := true }).2.hold
    (.file 0)

/-- Where the greeting is written. -/
def greetingWiring : Wiring :=
  { out := .file .out, err := .file .out,
    outlets := (Outlets.ofSession lettered).setHeldSink (.file .out) (Sink.ofHandle (.file 0)) }

theorem leadsTo_greeting : FileTarget.LeadsTo ⟨.append, "f"⟩ lettered ["f"] := by
  have htext : (lettered.resolvePath "f").text = "/f" := by decide +kernel
  have hnames : FileSystem.namesOf "/f" = ["f"] := by decide +kernel
  have hshort : (Utf8.encode "f").length ≤ FileSystem.maxName := by decide +kernel
  rw [FileTarget.LeadsTo, htext, FileSystem.locateText, if_neg (by decide),
    if_neg (by decide), hnames]
  simp [lettered, FileSystem.walk, FileSystem.get?, hshort]

theorem openRedirections_greeting :
    openRedirections lettered greeting.redirections = (.ok greetingWiring, greeted) := by
  have hnull : Path.hasNull (lettered.resolvePath "f").text = false := by decide +kernel
  have hopen : lettered.world.openText lettered.world.directory (lettered.resolvePath "f").text
      (World.accessOf .append) = .ok (lettered.world.addOpened
        { place := ["f"], append := true, readable := false, writable := true }) := by
    have hcreate := leadsTo_greeting
    unfold FileTarget.LeadsTo at hcreate
    unfold Kernel.openText
    simp only [World.create_accessOf, if_true, hcreate]
    rfl
  have hwritable : lettered.world.unwritable? (lettered.resolvePath "f") = none := by
    unfold World.unwritable?
    split <;> rfl
  have hfile : lettered.world.openFile (lettered.resolvePath "f") .append =
      .ok (.file 0, greeted.world) := by
    simp only [World.openFile, hopen, hwritable, World.guarded, hnull]
    rfl
  have htarget : openTarget lettered .out ⟨.append, "f"⟩ (Outlets.ofSession lettered) =
      .ok (greetingWiring.outlets, greeted) := by
    rw [openTarget, hfile]
    rfl
  simp only [openRedirections, greeting, htarget]
  rfl

/-- The command before the last is missing and leaves its file alone; the greeting is added to what
the file held. -/
theorem run_files_greeting : ∃ executable,
    (run (fun _ s => (.ok "", s)) lettered [stray, greeting]).session.world.files.get? ["f"] =
      some (.file (pack (Utf8.encode "ahi\n")) executable) := by
  let capture : Builtin.Capture := fun _ s => (.ok "", s)
  have hrun : run capture lettered ([stray] ++ [greeting]) =
      runWired capture greeted ([stray] ++ [greeting]) greetingWiring := by
    simp only [run, List.getLast?_concat, openRedirections_greeting]
  obtain ⟨status, hended⟩ :
      ∃ status, (run capture lettered ([stray] ++ [greeting])).ending = .ok status := by
    have hcalm : (runWired capture greeted ([stray] ++ [greeting]) greetingWiring).ending.toBool =
        true := by
      decide +kernel
    rw [hrun]
    rcases hending : (runWired capture greeted ([stray] ++ [greeting]) greetingWiring).ending
        with _ | status
    · rw [hending] at hcalm
      cases hcalm
    · exact ⟨status, rfl⟩
  have hstages : ∀ stage ∈ [stray] ++ [greeting], stage = stray ∨ stage = greeting := by simp
  have hunshared : Unshared capture lettered ([stray] ++ [greeting]) ["f"] := by
    refine ⟨⟨.refl _, rfl, nofun, nofun, nofun⟩, fun stage hstage path htarget => ?_,
      fun stage hstage b hb => ?_⟩
    · rcases hstages stage hstage with rfl | rfl <;> cases htarget
    · rcases hstages stage hstage with rfl | rfl <;> cases hb
      exact ⟨nofun, fun s _ _ => ⟨.refl _, rfl⟩⟩
  have hother (c' : Channel) (t : FileTarget) (hne : c' ≠ .out)
      (ht : greeting.redirections.target? c' = some t) :
      ∃ place', t.LeadsTo lettered place' ∧ place' ≠ ["f"] := by
    cases c' with
    | out => exact absurd rfl hne
    | err => cases ht
  obtain ⟨-, ⟨n, executable, bytes, -, hwrites, hfile⟩, -⟩ :=
    run_files (c := .out) rfl leadsTo_greeting trivial hother
    hunshared openRedirections_greeting hended
  cases hwrites with
  | builtin hb =>
    cases hb
    exact ⟨executable, hfile⟩
  | missing ht => cases ht
  | refused ht => cases ht
  | program ht => cases ht

end CommandShell.Pipeline
