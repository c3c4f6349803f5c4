import CommandShell.Proofs.Scope.Pipeline
import CommandShell.Proofs.Spool.Last

/-!
# Opening spools

When the files of the last stage have been opened, the file of a channel is a spool. It holds what
it held before if the output is added to it, and nothing otherwise.

## Main statements

- `Kernel.Spares.openTarget`: a file that is opened for a channel is a spool.
- `Pipeline.filing_init`: the run at its start, when the files of the last stage are open.
-/

namespace CommandShell

open FileSystem (Leads IsPlain)

/-- A system in which nobody writes to a place or has a file open there for writing, and which has
been left so since the files were as they were at first. -/
structure Kernel.Spares (origin : FileSystem) (place : Place) (k : Kernel) : Prop where
  leads : Leads origin k.files
  untouched : k.files.get? place = origin.get? place
  opened : ∀ m f, (m, f) ∈ k.opened → m < k.nextNumber ∧ (f.writable = true → f.place ≠ place)
  held : ∀ m, .file m ∈ k.held → m < k.nextNumber
  tasks : ∀ t ∈ k.tasks, t.process.Avoids origin place ∧
    ∀ x ∈ t.descriptors, ∀ m, x.2 = .file m → m < k.nextNumber

/-- The place that a target of a redirection leads to, where something stands or a file can be
made. -/
def FileTarget.LeadsTo (target : FileTarget) (s : Session) (place : Place) : Prop :=
  s.world.files.locateText .create s.world.directory (s.resolvePath target.path).text =
    .ok (place, s.world.files.get? place)

theorem FileTarget.LeadsTo.onKernel {target : FileTarget} {s : Session} {place : Place}
    (h : target.LeadsTo s place) {k : Kernel} (hl : Leads s.world.files k.files) :
      target.LeadsTo (s.onKernel fun _ => k) place := by
  unfold LeadsTo at h ⊢
  exact hl.locateText h

namespace Redirections

/-- The file that a channel is redirected to. -/
def target? (r : Redirections) : Channel → Option FileTarget
  | .out => r.out
  | .err =>
    match r.err with
    | some (.file target) => some target
    | _ => none

/-- Where is written what is meant for a channel. -/
def route (r : Redirections) : Channel → Pipeline.Outlet
  | .out => if r.out.isSome then .file .out else .screen .out
  | .err =>
    match r.err with
    | none => .screen .err
    | some (.file _) => .file .err
    | some .merge => if r.out.isSome then .file .out else .screen .out

/-- Errors go where the output goes, if they follow it. -/
theorem route_of_merges {r : Redirections} (h : r.merges = true) : r.route .err = r.route .out := by
  have herr : r.err = some .merge := by simpa [merges] using h
  simp [route, herr]

/-- What is written to the file of a channel when the last stage writes some texts. -/
def filed (r : Redirections) (c : Channel) (writes : List Builtin.Emission) : Bytes :=
  (writes.filter fun e => r.route e.1 = .file c).flatMap fun e => Utf8.encode e.2

end Redirections

namespace World

@[simp] theorem create_accessOf (mode : OpenMode) : (accessOf mode).create = true := by
  cases mode <;> rfl

@[simp] theorem write_accessOf (mode : OpenMode) : (accessOf mode).write = true := by
  cases mode <;> rfl

@[simp] theorem read_accessOf (mode : OpenMode) : (accessOf mode).read = false := by
  cases mode <;> rfl

end World

namespace Kernel

variable {origin : FileSystem} {place : Place} {k k' : Kernel} {base : Place} {text : String}
  {mode : OpenMode} {x : Handle}

/-- What opening a file for writing does. -/
theorem openText_accessOf (ho : k.openText base text (World.accessOf mode) = .ok (x, k')) :
    (k' = k ∧ (x = .null ∨ x = .directory) ∧ ∃ found node,
      k.files.locateText .create base text = .ok (found, node) ∧ ¬ IsPlain node) ∨
      ∃ found node files content executable,
        k.files.locateText .create base text = .ok (found, node) ∧ x = .file k.nextNumber ∧
        k' = ({ k with files }.addOpened
          { place := found, append := (World.accessOf mode).append, readable := false,
            writable := true }).2 ∧
        Leads k.files files ∧ FileSystem.SameBut found k.files files ∧
        files.get? found = some (.file (pack content) executable) ∧
        content = if mode = .append then FileSystem.held node else [] := by
  have hpurpose : (if (World.accessOf mode).create then FileSystem.Purpose.create else .follow) =
      .create := by simp
  obtain hnone | ⟨found, node, files, content, executable, hfound, rfl, rfl, -, hleads, hsame,
      hfile, hcontent⟩ :=
    openText_cases ho
  · rw [hpurpose] at hnone
    exact .inl hnone
  · rw [hpurpose] at hfound
    refine .inr ⟨found, node, files, unpack content, executable, hfound, rfl, ?_, hleads,
      hsame, ?_, ?_⟩
    · simp
    · rwa [pack_unpack]
    · rw [hcontent]
      cases mode <;> simp [World.accessOf, Access.output, Access.addition]

namespace Spares

/-- A file that is opened for writing is a spool. -/
theorem openText_self (h : k.Spares origin place) (hplain : IsPlain (k.files.get? place))
    (hl : k.files.locateText .create base text = .ok (place, k.files.get? place))
    (ho : k.openText base text (World.accessOf mode) = .ok (x, k')) {aside : Nat → Prop}
    (hasides : ∀ m, aside m → m < k.nextNumber ∧ ∀ f, (m, f) ∈ k.opened → f.writable = true)
    (alone : Prop) : x = .file k.nextNumber ∧ (∀ m f, (m, f) ∈ k'.opened → m < k'.nextNumber) ∧
      ∃ executable, (k'.hold x).Spools ⟨origin, place, executable, k.nextNumber, aside, alone⟩
        (if mode = .append then FileSystem.held (origin.get? place) else []) := by
  obtain ⟨-, -, found, node, hfound, hnode⟩ |
    ⟨found, node, files, content, executable, hfound, rfl, rfl, hleads, hsame, hfile, hcontent⟩ :=
    openText_accessOf ho <;> rw [hl] at hfound <;> obtain ⟨rfl, rfl⟩ :=
      Prod.mk.inj (Except.ok.inj hfound)
  · exact absurd hplain hnode
  · rw [h.untouched] at hcontent
    refine ⟨rfl, fun m f hmem => ?_, executable, ?_⟩
    · rcases List.mem_cons.mp hmem with heq | hold
      · exact (Prod.mk.inj heq).1 ▸ Nat.lt_succ_self _
      · exact Nat.lt_succ_of_lt (h.opened m f hold).1
    · rw [← hcontent]
      refine ⟨h.leads.trans hleads, hfile, Nat.lt_succ_self _, fun m hm => ?_, fun f hmem => ?_,
        fun m f hmem hne hw => ?_, fun _ => ⟨_, List.mem_cons_self⟩, fun t ht =>
          ⟨(h.tasks t ht).1, fun _ y hy heq => ?_⟩⟩
      · exact ⟨Nat.lt_succ_of_lt (hasides m hm).1, Nat.ne_of_lt (hasides m hm).1⟩
      · rcases List.mem_cons.mp hmem with heq | hold
        · obtain rfl := (Prod.mk.inj heq).2
          refine ⟨rfl, rfl, ?_⟩
          cases mode <;> simp_all [World.accessOf, Access.output, Access.addition]
        · exact absurd (h.opened _ f hold).1 (Nat.lt_irrefl _)
      · rcases List.mem_cons.mp hmem with heq | hold
        · exact absurd (Prod.mk.inj heq).1 hne
        · exact (h.opened m f hold).2 (hw.elim id fun hm => (hasides m hm).2 f hold)
      · exact Nat.lt_irrefl _ ((h.tasks t ht).2 y hy _ heq)

/-- Opening another file for writing. -/
theorem openText_other (h : k.Spares origin place) {found : Place} (hne : found ≠ place)
    (hl : k.files.locateText .create base text = .ok (found, k.files.get? found))
    (ho : k.openText base text (World.accessOf mode) = .ok (x, k')) :
    (k'.hold x).Spares origin place ∧
      ∀ m, x = .file m → m < k'.nextNumber ∧ ∀ f, (m, f) ∈ k'.opened → f.writable = true := by
  obtain ⟨rfl, hx, -⟩ |
    ⟨found', node, files, content, executable, hfound, rfl, rfl, hleads, hsame, -⟩ :=
      openText_accessOf ho
  · have hfile (m : Nat) : x ≠ .file m := by rcases hx with rfl | rfl <;> exact nofun
    refine ⟨⟨h.leads, h.untouched, h.opened, fun m hm => ?_, h.tasks⟩, fun m hm =>
      absurd hm (hfile m)⟩
    rcases List.mem_cons.mp hm with heq | hold
    · exact absurd heq.symm (hfile m)
    · exact h.held m hold
  · rw [hl] at hfound
    obtain ⟨rfl, rfl⟩ := Prod.mk.inj (Except.ok.inj hfound)
    refine ⟨⟨h.leads.trans hleads, (hsame.elsewhere _ hne.symm).trans h.untouched, fun m f hmem =>
      ?_, fun m hm => ?_,
      fun t ht =>
        ⟨(h.tasks t ht).1, fun y hy m heq => Nat.lt_succ_of_lt ((h.tasks t ht).2 y hy m heq)⟩⟩,
      fun m hm => ?_⟩
    · rcases List.mem_cons.mp hmem with heq | hold
      · obtain ⟨rfl, rfl⟩ := Prod.mk.inj heq
        exact ⟨Nat.lt_succ_self _, fun _ => hne⟩
      · exact ⟨Nat.lt_succ_of_lt (h.opened m f hold).1, (h.opened m f hold).2⟩
    · rcases List.mem_cons.mp hm with heq | hold
      · exact Handle.file.inj heq ▸ Nat.lt_succ_self _
      · exact Nat.lt_succ_of_lt (h.held m hold)
    · obtain rfl := Handle.file.inj hm
      refine ⟨Nat.lt_succ_self _, fun f hmem => ?_⟩
      rcases List.mem_cons.mp hmem with heq | hold
      · exact (Prod.mk.inj heq).2 ▸ rfl
      · exact absurd (h.opened _ f hold).1 (Nat.lt_irrefl _)

end Spares

/-- Another file is opened for writing when there is a spool. -/
theorem Spools.openText_other {d : Spool} {content : Bytes} (h : k.Spools d content) {found : Place}
    (hne : found ≠ d.place) (hl : k.files.locateText .create base text =
      .ok (found, k.files.get? found))
    (hopened : ∀ m f, (m, f) ∈ k.opened → m < k.nextNumber)
    (ho : k.openText base text (World.accessOf mode) = .ok (x, k')) :
    (k'.hold x).Spools { d with aside := fun m => x = .file m } content := by
  obtain ⟨rfl, hx, -⟩ |
    ⟨found', node, files, bytes, executable, hfound, rfl, rfl, hleads, hsame, -⟩ :=
      openText_accessOf ho
  · have hfile (m : Nat) : x ≠ .file m := by rcases hx with rfl | rfl <;> exact nofun
    refine ⟨h.leads, h.file, h.number, fun m hm => absurd hm (hfile m), h.own,
      fun m f hmem hm hw => ?_,
      fun hmem => h.kept ?_, fun t ht => ⟨(h.tasks t ht).avoids, (h.tasks t ht).apart⟩⟩
    · exact h.others m f hmem hm (hw.imp id fun heq => absurd heq (hfile m))
    · rcases List.mem_cons.mp hmem with heq | hold
      · exact absurd heq.symm (hfile _)
      · exact hold
  · rw [hl] at hfound
    obtain ⟨rfl, rfl⟩ := Prod.mk.inj (Except.ok.inj hfound)
    have hnew : k.nextNumber ≠ d.number := Nat.ne_of_gt h.number
    refine ⟨h.leads.trans hleads, (hsame.elsewhere _ hne.symm).trans h.file,
      Nat.lt_succ_of_lt h.number, fun m hm => ?_,
      fun f hmem => ?_, fun m f hmem hm hw => ?_, fun hmem => ?_,
      fun t ht => ⟨(h.tasks t ht).avoids, (h.tasks t ht).apart⟩⟩
    · obtain rfl := Handle.file.inj hm
      exact ⟨Nat.lt_succ_self _, hnew⟩
    · rcases List.mem_cons.mp hmem with heq | hold
      · exact absurd (Prod.mk.inj heq).1.symm hnew
      · exact h.own f hold
    · rcases List.mem_cons.mp hmem with heq | hold
      · obtain ⟨rfl, rfl⟩ := Prod.mk.inj heq
        exact hne
      · refine h.others m f hold hm (hw.imp id fun heq => ?_)
        obtain rfl := Handle.file.inj heq
        exact absurd (hopened _ f hold) (Nat.lt_irrefl _)
    · rcases List.mem_cons.mp hmem with heq | hold
      · exact absurd (Handle.file.inj heq).symm hnew
      · obtain ⟨f, hf⟩ := h.kept hold
        exact ⟨f, List.mem_cons_of_mem _ hf⟩

end Kernel

namespace Pipeline

variable {s s' : Session} {place : Place} {target : FileTarget} {o o' : Outlets} {r : Redirections}
  {wiring : Wiring}

/-- Where the last stage writes when its files are open. -/
theorem route_openRedirections (ho : openRedirections s r = (.ok wiring, s')) :
    wiring.out = r.route .out ∧ wiring.err = r.route .err := by
  have herrors {s : Session} {out : Outlet} {o : Outlets}
      (he : openErrors s r.err out o = (.ok wiring, s'))
      (hout : out = r.route .out) : wiring.out = r.route .out ∧ wiring.err = r.route .err := by
    unfold openErrors at he
    split at he
    · next hr =>
      cases he
      exact ⟨hout, by simp [Redirections.route, hr]⟩
    · next hr =>
      cases he
      exact ⟨hout, by rw [hout]; simp [Redirections.route, hr]⟩
    · next hr =>
      split at he <;> cases he
      exact ⟨hout, by simp [Redirections.route, hr]⟩
  unfold openRedirections at ho
  split at ho
  · next hr => exact herrors ho (by simp [Redirections.route, hr])
  · next hr =>
    split at ho
    · cases ho
    · exact herrors ho (by simp [Redirections.route, hr])

/-- A session in which files of the last stage have been opened, and that of a channel is a
spool. -/
structure Spooled (d : Spool) (c : Channel) (content : Bytes) (s s' : Session)
    (o : Outlets) : Prop where
  spools : s'.world.toKernel.Spools d content
  sink : o.heldSink (.file c) = some (Sink.ofHandle (.file d.number))
  held : .file d.number ∈ s'.world.held
  devices : ∀ outlet sink, outlet ≠ .file c → o.heldSink outlet = some sink →
    (Scope.around d).touches sink.stream.device
  steady : s.Steady s'

variable {c : Channel}

/-- A file that is opened for a channel is a spool. -/
theorem spooled_openTarget {origin : FileSystem} (hspares : s.world.toKernel.Spares origin place)
    (hplain : IsPlain (s.world.files.get? place)) (hplace : target.LeadsTo s place)
    (ho : openTarget s c target o = .ok (o', s')) (aside : Nat → Prop)
    (hasides : ∀ m, aside m → m < s.world.nextNumber ∧ ∀ f, (m, f) ∈ s.world.opened →
      f.writable = true)
    (hdevices : ∀ outlet sink, outlet ≠ .file c → o.heldSink outlet = some sink →
      ∀ m, sink.stream.device = .file m → aside m) :
    (∀ m f, (m, f) ∈ s'.world.opened → m < s'.world.nextNumber) ∧
      ∃ executable, Spooled ⟨origin, place, executable, s.world.nextNumber, aside, True⟩ c
        (if target.mode = .append then FileSystem.held (origin.get? place) else []) s s' o' := by
  obtain ⟨x, k, hopen, rfl, rfl⟩ := openTarget_eq_ok ho
  obtain ⟨rfl, hnumbers, executable, hk⟩ := hspares.openText_self hplain hplace hopen hasides True
  refine ⟨hnumbers, executable, hk, Outlets.heldSink_setHeldSink_self .., List.mem_cons_self,
    fun outlet sink hne hs => ?_, ⟨rfl, rfl, rfl, rfl, rfl, .refl _⟩⟩
  rw [Outlets.heldSink_setHeldSink_of_ne hne] at hs
  exact hdevices outlet sink hne hs

theorem heldSink_ofSession (s : Session) (outlet : Outlet) :
    (Outlets.ofSession s).heldSink outlet = none := by
  rcases outlet with c | c | _ <;> try cases c
  all_goals rfl

/-- When the redirections of the last stage have been opened, the file of a channel is a spool: the
targets lead to different places, and nobody else writes to that of the channel. -/
theorem spooled_openRedirections (ht : r.target? c = some target)
    (hspares : s.world.toKernel.Spares s.world.files place)
    (hplain : IsPlain (s.world.files.get? place)) (hplace : target.LeadsTo s place)
    (hother : ∀ c' t, c' ≠ c → r.target? c' = some t → ∃ place', t.LeadsTo s place' ∧
      place' ≠ place)
    (ho : openRedirections s r = (.ok wiring, s')) :
    ∃ d : Spool, d.origin = s.world.files ∧ d.place = place ∧ d.alone ∧ Spooled d c
      (if target.mode = .append then FileSystem.held (s.world.files.get? place) else []) s s'
        wiring.outlets := by
  have hnone (outlet : Outlet) (sink : HeldSink)
      (hs : (Outlets.ofSession s).heldSink outlet = some sink) : False := by
    simp [heldSink_ofSession] at hs
  unfold openRedirections at ho
  cases c with
  | out =>
    replace ht : r.out = some target := ht
    rw [ht] at ho
    dsimp only at ho
    split at ho
    · cases ho
    · next o₁ s₁ htarget =>
      obtain ⟨hnumbers, executable, hs₁⟩ :=
        spooled_openTarget hspares hplain hplace htarget (fun _ => False)
        (fun _ => False.elim) fun outlet sink _ hs => absurd hs (hnone outlet sink)
      unfold openErrors at ho
      split at ho
      · cases ho
        exact ⟨_, rfl, rfl, trivial, hs₁⟩
      · cases ho
        exact ⟨_, rfl, rfl, trivial, hs₁⟩
      · next t herr =>
        split at ho
        · cases ho
        · next o₂ s₂ htarget₂ =>
          cases ho
          obtain ⟨_, _, -, -, rfl⟩ := openTarget_eq_ok htarget
          obtain ⟨x, k, hopen, rfl, rfl⟩ := openTarget_eq_ok htarget₂
          obtain ⟨place', hplace', hne⟩ :=
            hother .err t (by simp) (by simp [Redirections.target?, herr])
          have hk :=
            hs₁.spools.openText_other hne (hs₁.spools.leads.locateText hplace') hnumbers hopen
          have hheld := (Kernel.SameTasks.openText hopen).held ▸ hs₁.held
          refine ⟨_, rfl, rfl, trivial, hk, ?_, List.mem_cons_of_mem _ hheld,
            fun outlet sink hout hs => ?_, hs₁.steady.trans ⟨rfl, rfl, rfl, rfl, rfl, .refl _⟩⟩
          · exact (Outlets.heldSink_setHeldSink_of_ne (by simp) _ _).trans hs₁.sink
          · obtain ⟨-, rfl⟩ | hold := Outlets.heldSink_setHeldSink hs
            · exact fun m hm => hm
            · exact fun m hm => (hs₁.devices outlet sink hout hold m hm).elim
  | err =>
    have herr : r.err = some (.file target) := by
      rcases hr : r.err with _ | t | _ <;> simp_all [Redirections.target?]
    rw [herr] at ho
    split at ho
    · unfold openErrors at ho
      dsimp only at ho
      split at ho <;> cases ho
      next htarget =>
      obtain ⟨-, executable, hs'⟩ :=
        spooled_openTarget hspares hplain hplace htarget (fun _ => False)
        (fun _ => False.elim) fun outlet sink _ hs => absurd hs (hnone outlet sink)
      exact ⟨_, rfl, rfl, trivial, hs'⟩
    · next t hout =>
      split at ho
      · cases ho
      · next o₁ s₁ htarget₁ =>
        obtain ⟨x, k, hopen, rfl, rfl⟩ := openTarget_eq_ok htarget₁
        obtain ⟨place', hplace', hne⟩ := hother .out t (by simp) hout
        obtain ⟨hspares₁, hx⟩ := hspares.openText_other hne hplace' hopen
        unfold openErrors at ho
        dsimp only at ho
        split at ho <;> cases ho
        next htarget =>
        have hplain₁ := hspares₁.untouched.symm ▸ hplain
        have hplace₁ : target.LeadsTo (s.onKernel fun _ => k.hold x) place :=
          hplace.onKernel hspares₁.leads
        have hdevices (outlet : Outlet) (sink : HeldSink) (_ : outlet ≠ .file .err)
            (hs : ((Outlets.ofSession s).setHeldSink (.file .out) (Sink.ofHandle x)).heldSink
              outlet = some sink)
            (m : Nat) (hm : sink.stream.device = .file m) : x = .file m := by
          obtain ⟨-, rfl⟩ | hold := Outlets.heldSink_setHeldSink hs
          · exact hm
          · exact absurd hold (hnone outlet sink)
        obtain ⟨-, executable, hs'⟩ :=
          spooled_openTarget hspares₁ hplain₁ hplace₁ htarget _ hx hdevices
        have hsteady : s.Steady (s.onKernel fun _ => k.hold x) := ⟨rfl, rfl, rfl, rfl, rfl, .refl _⟩
        exact ⟨_, rfl, rfl, trivial, hs'.spools, hs'.sink, hs'.held, hs'.devices,
          hsteady.trans hs'.steady⟩

/-- Making the pipes of a pipeline makes no difference to a spool. -/
theorem spools_addPipes {d : Spool} {content : Bytes} (n : Nat) {k : Kernel}
    (h : k.Spools d content) (hheld : .file d.number ∈ k.held) :
    (Run.addPipes n k).2.Spools d content ∧
      .file d.number ∈ (Run.addPipes n k).2.held := by
  induction n generalizing k with
  | zero => exact ⟨h, hheld⟩
  | succ n ih =>
    have hmade : Kernel.Spools d content
        ((k.addPipe.2.hold (.reader k.nextNumber)).hold (.writer k.nextNumber)) :=
      h.of_same rfl rfl (fun _ => hheld) (Nat.le_succ _) h.tasks
    exact ih hmade (List.mem_cons_of_mem _ (List.mem_cons_of_mem _ hheld))

/-- The run at its start, when the files of the last stage are open. -/
theorem filing_init {d : Spool} {content : Bytes} (ha : d.alone)
    (h : Spooled d c content s s' wiring.outlets) (stages : List Stage) :
    (Run.init s' stages wiring).Filing d c content ∧
      (Run.init s' stages wiring).Drained c := by
  obtain ⟨hk, hheld⟩ := spools_addPipes (stages.length - 1) h.spools h.held
  refine ⟨⟨⟨⟨content, hk⟩, h.devices, nofun, nofun⟩, _, h.sink,
    ⟨⟨rfl, rfl, hheld, content, hk, by simp [Sink.ofHandle]⟩, rfl, rfl, rfl, rfl⟩, .inl ha⟩,
      fun sink hs => ?_⟩
  cases h.sink.symm.trans hs
  exact ⟨rfl, rfl⟩

end Pipeline

end CommandShell
