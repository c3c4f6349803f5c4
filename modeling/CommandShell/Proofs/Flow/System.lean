import CommandShell.Proofs.Spool.Kernel

/-!
# Where programs read and write

What is written to a port comes out of a tap, goes to the end of a file, or is lost. Programs that
are given nothing else open no files, so files change only where one is open.

## Main statements

- `Kernel.Landed`: what has come to a port.
- `Kernel.Alike`: systems that differ in the order of their tasks and in the time only.
- `Kernel.writeHandle_takes`: what is written to a port, or to something that it is apart from.
- `Kernel.sheds_finish`: what is forgotten when a task ends.
-/

namespace CommandShell

/-- Where what the last program of a chain writes comes out. -/
inductive Port where
  | tap (t : Tap)
  /-- A file at a place, open under a number. -/
  | file (number : Nat) (place : Place) (executable : Bool)
  /-- It is lost. -/
  | nowhere
  deriving DecidableEq

/-- What a descriptor leads to that leads to a port. -/
def Port.handle : Port → Handle
  | .tap t => .tap t
  | .file n _ _ => .file n
  | .nowhere => .null

namespace Kernel

variable {k k' : Kernel}

/-- What has come out of a tap. -/
def spilledOn (k : Kernel) (t : Tap) : Bytes :=
  (k.spilled.reverse.filter fun spill => spill.tap = t).flatMap fun spill => unpack spill.bytes

/-- What has come to a port: what has come out of the tap, or what the file holds, which is open for
writing at its end and for nobody else. -/
def Landed (k : Kernel) : Port → Bytes → Prop
  | .tap t, bytes => k.spilledOn t = bytes
  | .file n place executable, bytes =>
    k.files.get? place = some (.file (pack bytes) executable) ∧
      (∃ f, k.opened.lookup n = some f ∧ f.place = place ∧
        (if f.append then bytes.length else f.offset) = bytes.length) ∧
      ∀ m f, k.opened.lookup m = some f → m ≠ n → f.writable = true → f.place ≠ place
  | .nowhere, _ => True

/-- What is written to a handle is taken, and the shell keeps it open. -/
def Takes (k : Kernel) : Handle → Prop
  | .null | .tap _ => True
  | .file n => .file n ∈ k.held ∧ ∃ f, k.opened.lookup n = some f ∧ f.writable = true
  | _ => False

theorem Landed.congr {p : Port} {bytes : Bytes} (h : k.Landed p bytes)
    (hspilled : k'.spilled = k.spilled) (hopened : k'.opened = k.opened)
    (hfiles : k'.files = k.files) : k'.Landed p bytes := by
  unfold Landed spilledOn at h ⊢
  rw [hspilled, hopened, hfiles]
  exact h

theorem Takes.congr {x : Handle} (h : k.Takes x) (hheld : k'.held = k.held)
    (hopened : k'.opened = k.opened) : k'.Takes x := by
  unfold Takes at h ⊢
  rw [hheld, hopened]
  exact h

/-- Files may change only at places that are open, and what is open stays so. -/
structure Still (k k' : Kernel) : Prop where
  opened : ∀ m f, k'.opened.lookup m = some f → ∃ f', k.opened.lookup m = some f' ∧
    f'.place = f.place
  kept : ∀ m f, k.opened.lookup m = some f → ∃ f', k'.opened.lookup m = some f' ∧
    f'.writable = f.writable
  files : ∀ place, (∀ m f, k.opened.lookup m = some f → f.place ≠ place) →
    k'.files.get? place = k.files.get? place

theorem Still.refl (k : Kernel) : k.Still k :=
  ⟨fun _ f hf => ⟨f, hf, rfl⟩, fun _ f hf => ⟨f, hf, rfl⟩, fun _ _ => rfl⟩

theorem Still.of_eq {k k' : Kernel} (hopened : k'.opened = k.opened) (hfiles : k'.files = k.files) :
    k.Still k' :=
  ⟨fun _ f hf => ⟨f, hopened ▸ hf, rfl⟩, fun _ f hf => ⟨f, hopened ▸ hf, rfl⟩,
    fun _ _ => by rw [hfiles]⟩

theorem Still.trans {k k' k'' : Kernel} (h : k.Still k') (g : k'.Still k'') : k.Still k'' := by
  constructor
  · intro m f hf
    obtain ⟨f', hf', hplace'⟩ := g.opened m f hf
    obtain ⟨f'', hf'', hplace''⟩ := h.opened m f' hf'
    exact ⟨f'', hf'', hplace''.trans hplace'⟩
  · intro m f hf
    obtain ⟨f', hf', hw'⟩ := h.kept m f hf
    obtain ⟨f'', hf'', hw''⟩ := g.kept m f' hf'
    exact ⟨f'', hf'', hw''.trans hw'⟩
  · intro place hclosed
    refine (g.files place fun m f hf => ?_).trans (h.files place hclosed)
    obtain ⟨f', hf', hplace'⟩ := h.opened m f hf
    exact hplace' ▸ hclosed m f' hf'

/-- What the shell writes to is taken as long as the shell holds it. -/
theorem Still.takes {k k' : Kernel} (h : k.Still k')
    (hheld : ∀ n, .file n ∈ k.held → .file n ∈ k'.held) {x : Handle} (hx : k.Takes x) :
      k'.Takes x := by
  cases x with
  | file n =>
    obtain ⟨hmem, f, hf, hw⟩ := hx
    obtain ⟨f', hf', hw'⟩ := h.kept n f hf
    exact ⟨hheld n hmem, f', hf', hw'.trans hw⟩
  | null | tap => trivial
  | _ => exact hx.elim

theorem Takes.ne_reader {k : Kernel} {h : Handle} (ht : k.Takes h) (n : Nat) : h ≠ .reader n := by
  rintro rfl
  exact ht

theorem Takes.ne_writer {k : Kernel} {h : Handle} (ht : k.Takes h) (n : Nat) : h ≠ .writer n := by
  rintro rfl
  exact ht

@[simp] theorem held_putBack (k : Kernel) (t : Task) : (k.putBack t).held = k.held := rfl

@[simp] theorem tasks_putBack (k : Kernel) (t : Task) : (k.putBack t).tasks = k.tasks ++ [t] := rfl

@[simp] theorem pipeContent_putBack (k : Kernel) (t : Task) (n : Nat) :
    (k.putBack t).pipeContent n = k.pipeContent n :=
  rfl

/-- A task that stands apart holds what it holds all the same. -/
theorem isHeldWith_eq (k : Kernel) (t : Task) (h : Handle) :
    k.isHeldWith t h = (k.putBack t).isHeld h := by
  simp only [isHeldWith, isHeld, putBack, List.any_append, List.any_cons, List.any_nil,
    Bool.or_false]
  rw [Bool.or_left_comm, Bool.or_comm (t.holds h)]

theorem isHeld_iff {k : Kernel} {h : Handle} :
    k.isHeld h = true ↔ h ∈ k.held ∨ ∃ t ∈ k.tasks, h ∈ t.handles := by
  simp [isHeld, Task.holds, Task.handles]

/-- The same system but for the order of its tasks and for the time. -/
structure Alike (k k' : Kernel) : Prop where
  tasks : k'.tasks.Perm k.tasks
  held : k'.held = k.held
  opened : k'.opened = k.opened
  files : k'.files = k.files
  pipes : k'.pipes = k.pipes
  spilled : k'.spilled = k.spilled

namespace Alike

theorem refl (k : Kernel) : k.Alike k := ⟨.refl _, rfl, rfl, rfl, rfl, rfl⟩

theorem trans {k'' : Kernel} (h : k.Alike k') (g : k'.Alike k'') : k.Alike k'' :=
  ⟨g.tasks.trans h.tasks, g.held.trans h.held, g.opened.trans h.opened, g.files.trans h.files,
    g.pipes.trans h.pipes, g.spilled.trans h.spilled⟩

theorem clock (k : Kernel) (clock : Nat) : k.Alike { k with clock } :=
  ⟨.refl _, rfl, rfl, rfl, rfl, rfl⟩

theorem pipeContent (h : k.Alike k') (n : Nat) : k'.pipeContent n = k.pipeContent n := by
  unfold Kernel.pipeContent
  rw [h.pipes]

theorem isHeld (h : k.Alike k') (x : Handle) : k'.isHeld x = true ↔ k.isHeld x = true := by
  rw [isHeld_iff, isHeld_iff, h.held]
  simp only [h.tasks.mem_iff]

theorem takes (h : k.Alike k') {x : Handle} (ht : k.Takes x) : k'.Takes x :=
  ht.congr h.held h.opened

theorem landed (h : k.Alike k') {p : Port} {bytes : Bytes} (hl : k.Landed p bytes) :
    k'.Landed p bytes :=
  hl.congr h.spilled h.opened h.files

theorem still (h : k.Alike k') : k.Still k' := .of_eq h.opened h.files

end Alike

@[simp] theorem pipeContent_setPipe_self (k : Kernel) (n : Nat) (content : ByteArray) :
    (k.setPipe n content).pipeContent n = content := by
  simp [pipeContent, setPipe]

theorem lookup_filter_of_ne {α : Type} (l : List (Nat × α)) {m n : Nat} (h : m ≠ n) :
    (l.filter fun p => p.1 ≠ n).lookup m = l.lookup m := by
  induction l with
  | nil => rfl
  | cons p rest ih =>
    by_cases hp : p.1 = n
    · have hm : (m == p.1) = false := by simpa using hp ▸ h
      rw [List.filter_cons_of_neg (by simpa using hp), ih, List.lookup_cons, hm]
    · rw [List.filter_cons_of_pos (by simpa using hp), List.lookup_cons, List.lookup_cons, ih]

theorem pipeContent_setPipe_of_ne (k : Kernel) {m n : Nat} (h : m ≠ n) (content : ByteArray) :
    (k.setPipe n content).pipeContent m = k.pipeContent m := by
  have hm : (m == n) = false := by simpa using h
  simp only [pipeContent, setPipe, List.lookup_cons, hm, lookup_filter_of_ne _ h]

/-- A task that is taken out of the others and put back behind them is still there. -/
theorem alike_take (hpids : (k.tasks.map Task.pid).Nodup) {pid : Nat} {t : Task}
    (h : k.take pid = some (t, k')) :
    k.Alike (k'.putBack t) ∧ t ∈ k.tasks ∧ t.pid = pid ∧ t.isRunning = true := by
  unfold take at h
  cases hfind : k.tasks.find? fun t => t.pid = pid && t.isRunning with
  | none => simp [hfind] at h
  | some u =>
    rw [hfind] at h
    obtain ⟨rfl, rfl⟩ := Prod.mk.inj (Option.some.inj h)
    have hmem := List.mem_of_find?_eq_some hfind
    obtain ⟨hpid, hrun⟩ : u.pid = pid ∧ u.isRunning = true := by simpa using List.find?_some hfind
    refine ⟨⟨?_, rfl, rfl, rfl, rfl, rfl⟩, hmem, hpid, hrun⟩
    -- No other task has the number.
    obtain ⟨before, after, hsplit⟩ := List.append_of_mem hmem
    rw [hsplit, List.map_append, List.map_cons] at hpids
    have hothers : ∀ v ∈ before ++ after, v.pid ≠ pid := by
      have hnot : u.pid ∉ (before ++ after).map Task.pid := by
        rw [List.map_append]
        exact (List.nodup_cons.mp (List.perm_middle.nodup_iff.mp hpids)).1
      rintro v hv rfl
      exact hnot (List.mem_map.mpr ⟨v, hv, hpid.symm⟩)
    have hkept : (k.tasks.filter fun v => v.pid ≠ pid) = before ++ after := by
      rw [hsplit, List.filter_append,
        List.filter_cons_of_neg (by simpa using hpid), ← List.filter_append]
      exact List.filter_eq_self.mpr fun v hv => by simpa using hothers v hv
    change ((k.tasks.filter fun v => v.pid ≠ pid) ++ [u]).Perm k.tasks
    rw [hkept, hsplit, List.append_assoc]
    exact List.Perm.append_left before List.perm_append_comm

section Write

/-- The state of an open file may change. -/
theorem lookup_setOpened_self {n : Nat} {f : FileSystem.OpenFile} (hf : k.opened.lookup n = some f)
    (f' : FileSystem.OpenFile) : (k.setOpened n f').opened.lookup n = some f' := by
  change (k.opened.map fun o => if o.1 = n then (n, f') else o).lookup n = some f'
  generalize k.opened = opened at hf ⊢
  induction opened with
  | nil => cases hf
  | cons p rest ih =>
    by_cases hp : p.1 = n
    · simp [hp]
    · have hn : (n == p.1) = false := by simpa using Ne.symm hp
      rw [List.lookup_cons, hn] at hf
      rw [List.map_cons, if_neg hp, List.lookup_cons, hn]
      exact ih hf

theorem lookup_setOpened_of_ne (k : Kernel) {m n : Nat} (h : m ≠ n) (f' : FileSystem.OpenFile) :
    (k.setOpened n f').opened.lookup m = k.opened.lookup m := by
  change (k.opened.map fun o => if o.1 = n then (n, f') else o).lookup m = k.opened.lookup m
  induction k.opened with
  | nil => rfl
  | cons p rest ih =>
    rw [List.map_cons, List.lookup_cons, List.lookup_cons, ih]
    by_cases hp : p.1 = n
    · have hm : (m == n) = false := by simpa using h
      simp [hp, hm]
    · simp [hp]

variable {n : Nat} {f f' : FileSystem.OpenFile}

/-- Whatever was open is open still, at its place. -/
theorem exists_lookup_setOpened (hf : k.opened.lookup n = some f) (hplace : f'.place = f.place)
    (hwritable : f'.writable = f.writable) {m : Nat} {g : FileSystem.OpenFile}
    (hg : k.opened.lookup m = some g) :
    ∃ g', (k.setOpened n f').opened.lookup m = some g' ∧ g'.place = g.place ∧
      g'.writable = g.writable := by
  by_cases hm : m = n
  · subst hm
    obtain rfl : f = g := Option.some.inj (hf.symm.trans hg)
    exact ⟨f', lookup_setOpened_self hf f', hplace, hwritable⟩
  · exact ⟨g, (lookup_setOpened_of_ne k hm f').trans hg, rfl, rfl⟩

/-- Whatever is open was open before, at its place. -/
theorem exists_lookup_of_setOpened (hf : k.opened.lookup n = some f) (hplace : f'.place = f.place)
    (hwritable : f'.writable = f.writable) {m : Nat} {g : FileSystem.OpenFile}
    (hg : (k.setOpened n f').opened.lookup m = some g) :
    ∃ g', k.opened.lookup m = some g' ∧ g'.place = g.place ∧ g'.writable = g.writable := by
  by_cases hm : m = n
  · subst hm
    obtain rfl : f' = g := Option.some.inj ((lookup_setOpened_self hf f').symm.trans hg)
    exact ⟨f, hf, hplace.symm, hwritable.symm⟩
  · exact ⟨g, (lookup_setOpened_of_ne k hm f').symm.trans hg, rfl, rfl⟩

/-- A system in which something has been written. -/
structure Writes (k k' : Kernel) (h : Handle) (bytes : Bytes) : Prop where
  tasks : k'.tasks = k.tasks
  held : k'.held = k.held
  pipes : k'.pipes = k.pipes
  takes : ∀ x, k.Takes x → k'.Takes x
  still : k.Still k'
  landed : ∀ p content, k.Landed p content →
    k'.Landed p (content ++ if h = p.handle then bytes else [])

/-- What is written to an open file. -/
theorem writes_file (hf : k.opened.lookup n = some f) (hw : f.writable = true)
    (bytes : ByteArray) : k.Writes (k.writeFile n bytes) (.file n) (unpack bytes) := by
  obtain ⟨hsame, -, hplace, hwritable⟩ := FileSystem.writeTo_elsewhere k.files f bytes
  have hend {content : ByteArray} {executable : Bool}
      (hfile : k.files.get? f.place = some (.file content executable))
      (hend : (if f.append then content.size else f.offset) = content.size) :
      (k.files.writeTo f bytes).2.get? f.place = some (.file (content ++ bytes) executable) ∧
        (k.files.writeTo f bytes).1 = { f with offset := content.size + bytes.size } :=
    ⟨(FileSystem.writeTo_end hfile hend bytes).1, FileSystem.writeTo_offset hfile hend bytes⟩
  unfold writeFile
  rw [hf]
  dsimp only
  generalize k.files.writeTo f bytes = written at hsame hplace hwritable hend
  obtain ⟨f', files⟩ := written
  dsimp only at hsame hplace hwritable hend ⊢
  have hstill : k.Still { k.setOpened n f' with files := files.touch f'.place k.fileTime } := by
    refine ⟨fun m g hg => ?_, fun m g hg => ?_, fun place hclosed => ?_⟩
    · obtain ⟨g', hg', hgp, -⟩ := exists_lookup_of_setOpened hf hplace hwritable hg
      exact ⟨g', hg', hgp⟩
    · obtain ⟨g', hg', -, hgw⟩ := exists_lookup_setOpened hf hplace hwritable hg
      exact ⟨g', hg', hgw⟩
    · rw [FileSystem.get?_touch]
      exact hsame.elsewhere place (hclosed n f hf).symm
  refine ⟨rfl, rfl, rfl, fun x hx => hstill.takes (fun _ hx => hx) hx, hstill,
    fun p content hp => ?_⟩
  · cases p with
    | tap t => simpa [Landed, Port.handle, spilledOn, setOpened] using hp
    | nowhere => trivial
    | file m place executable =>
      obtain ⟨hfile, ⟨g, hg, hgp, hgend⟩, hothers⟩ := hp
      have hothers' (m' : Nat) (g' : FileSystem.OpenFile)
          (hg' : (k.setOpened n f').opened.lookup m' = some g')
          (hne : m' ≠ m) (hgw : g'.writable = true) : g'.place ≠ place := by
        obtain ⟨g₀, hg₀, hp₀, hw₀⟩ := exists_lookup_of_setOpened hf hplace hwritable hg'
        exact hp₀ ▸ hothers m' g₀ hg₀ hne (hw₀.trans hgw)
      by_cases hm : m = n
      · subst hm
        obtain rfl : f = g := Option.some.inj (hf.symm.trans hg)
        have hsize : (pack content).size = content.length := List.size_toArray ..
        rw [← hsize] at hgend
        obtain ⟨hwritten, rfl⟩ := hend (hgp ▸ hfile) hgend
        rw [Port.handle, if_pos rfl]
        refine ⟨?_, ⟨_, lookup_setOpened_self hf _, hgp, ?_⟩, hothers'⟩
        · rw [FileSystem.get?_touch, ← hgp, hwritten]
          simp [pack, unpack, ByteArray.ext_iff]
        · have hlength : (content ++ unpack bytes).length = (pack content).size + bytes.size := by
            rw [List.length_append, hsize]
            rfl
          rw [hlength]
          exact ite_self _
      · rw [Port.handle, if_neg (fun heq => hm (Handle.file.inj heq).symm), List.append_nil]
        refine ⟨?_, ⟨g, (lookup_setOpened_of_ne k hm f').trans hg, hgp, hgend⟩, hothers'⟩
        rw [FileSystem.get?_touch,
          hsame.elsewhere place (hothers n f hf (Ne.symm hm) hw).symm, hfile]

/-- What a task writes comes out where it writes. -/
theorem writeHandle_takes {h : Handle} (ht : k.Takes h) (t : Task) (descriptor : Nat)
    (bytes : ByteArray) (next : Except Errno Unit → Process) :
    ∃ k', k.writeHandle t h descriptor bytes next = .proceed k' t (next (.ok ())) ∧
      k.Writes k' h (unpack bytes) := by
  cases h with
  | null =>
    refine ⟨k, rfl, rfl, rfl, rfl, fun _ => id, .refl k, fun p content hp => ?_⟩
    cases p with
    | nowhere => trivial
    | tap | file => simpa [Port.handle] using hp
  | tap tap =>
    refine ⟨_, rfl, rfl, rfl, rfl, fun _ => id, .of_eq rfl rfl, fun p content hp => ?_⟩
    cases p with
    | nowhere => trivial
    | file => simpa [Port.handle, Landed] using hp
    | tap tap' =>
      obtain rfl : k.spilledOn tap' = content := hp
      by_cases hnone : bytes.size = 0
      · have hbytes : unpack bytes = [] := by
          obtain rfl : bytes = ByteArray.empty := by simpa using hnone
          rfl
        simp [Landed, spilledOn, hnone, hbytes]
      · by_cases hsame : tap = tap'
        · simp [Landed, Port.handle, spilledOn, hnone, hsame, List.filter_append,
            List.flatMap_append]
        · simp [Landed, Port.handle, spilledOn, hnone, hsame, List.filter_append]
  | file n =>
    obtain ⟨-, f, hf, hw⟩ := ht
    refine ⟨k.writeFile n bytes, ?_, writes_file hf hw bytes⟩
    simp [writeHandle, hf, hw]
  | _ => exact ht.elim

end Write

section Finish

/-- A system that has forgotten pipes that nobody reads. -/
structure Sheds (k k' : Kernel) : Prop where
  tasks : k'.tasks = k.tasks
  held : k'.held = k.held
  opened : k'.opened = k.opened
  files : k'.files = k.files
  spilled : k'.spilled = k.spilled
  pipes : ∀ n, k.isHeld (.reader n) = true → k'.pipeContent n = k.pipeContent n

theorem Sheds.refl (k : Kernel) : k.Sheds k := ⟨rfl, rfl, rfl, rfl, rfl, fun _ _ => rfl⟩

theorem Sheds.isHeld (h : k.Sheds k') (x : Handle) : k'.isHeld x = k.isHeld x := by
  unfold Kernel.isHeld
  rw [h.held, h.tasks]

theorem Sheds.trans {k'' : Kernel} (h : k.Sheds k') (g : k'.Sheds k'') : k.Sheds k'' :=
  ⟨g.tasks.trans h.tasks, g.held.trans h.held, g.opened.trans h.opened, g.files.trans h.files,
    g.spilled.trans h.spilled, fun n hn => (g.pipes n ((h.isHeld _).trans hn)).trans (h.pipes n hn)⟩

/-- A file that the shell holds is not forgotten. -/
theorem sheds_release {x : Handle} (hx : ∀ m, x = .file m → x ∈ k.held) :
    k.Sheds (k.release [] x) := by
  unfold release
  extract_lets isHeld'
  -- Forgetting a pipe makes no difference to one that is read.
  have hpipe (n : Nat) (hn : ¬ (isHeld' (.reader n) || isHeld' (.writer n)) = true) :
      k.Sheds { k with pipes := k.pipes.filter fun p => p.1 ≠ n } := by
    refine ⟨rfl, rfl, rfl, rfl, rfl, fun m hm => ?_⟩
    have hne : m ≠ n := by
      rintro rfl
      exact hn (by simp [isHeld', hm])
    simp only [pipeContent, lookup_filter_of_ne _ hne]
  split
  · next n =>
    have hheld : isHeld' (.file n) = true := by simp [isHeld', isHeld, hx n rfl]
    rw [if_pos hheld]
    exact .refl k
  · split
    · exact .refl k
    · next hn => exact hpipe _ hn
  · split
    · exact .refl k
    · next hn => exact hpipe _ hn
  · exact .refl k

theorem sheds_releaseAll {hs : List Handle} (hx : ∀ x ∈ hs, ∀ m, x = .file m → x ∈ k.held) :
    k.Sheds (k.releaseAll [] hs) := by
  unfold releaseAll
  induction hs generalizing k with
  | nil => exact .refl k
  | cons x rest ih =>
    have hfirst := sheds_release (hx x List.mem_cons_self)
    refine hfirst.trans (ih fun y hy m hm => ?_)
    rw [hfirst.held]
    exact hx y (List.mem_cons_of_mem x hy) m hm

/-- When a task ends that the shell has started, the shell is told so, and what only the task held
is forgotten. -/
theorem sheds_finish {t : Task} (htasks : ∀ u ∈ k.tasks, u.parent = shellPid ∧ u.pid ≠ shellPid)
    (hpid : t.pid ≠ shellPid) (hparent : t.parent = shellPid)
    (hfiles : ∀ x ∈ t.handles, ∀ m, x = .file m → x ∈ k.held) (e : Exit) :
    Sheds { k with tasks := k.tasks ++
      [{ t with ended := some e, descriptors := [], process := .exhausted }] } (k.finish t e) := by
  have horphan : k.orphan t.pid = k := by
    have hfilter : (k.tasks.filter fun u => u.parent ≠ t.pid || u.isRunning) = k.tasks :=
      List.filter_eq_self.mpr fun u hu => by simp [(htasks u hu).1, hpid.symm]
    have hmap : (k.tasks.map fun u =>
        if u.parent = t.pid then { u with parent := adopter } else u) = k.tasks := by
      refine (List.map_congr_left fun u hu => ?_).trans (List.map_id _)
      rw [if_neg ((htasks u hu).1 ▸ hpid.symm), id]
    unfold orphan
    dsimp only
    rw [hfilter, hmap]
  have hnotify : (k.tasks.map fun (p : Task) => if p.pid = t.parent then notify p else p) =
      k.tasks := by
    refine (List.map_congr_left fun u hu => ?_).trans (List.map_id _)
    rw [if_neg (hparent ▸ (htasks u hu).2), id]
  unfold finish
  rw [horphan]
  dsimp only
  rw [hnotify, if_pos (by simp [isParent, hparent])]
  exact sheds_releaseAll hfiles

end Finish

end Kernel

end CommandShell
