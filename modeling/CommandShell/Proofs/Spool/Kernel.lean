import CommandShell.Proofs.Spool.Opening

/-!
# Spools

A spool is a file that output is collected in: it is open for writing at its end, and no program
opens it for itself. What a task writes there comes after what the file holds, and nothing else that
is done to the system makes a difference to it.

## Main statements

- `Kernel.Spools.step`: a request of a task adds what the task writes to the spool.
- `Kernel.Spools.moves`: whatever is done to the system adds what tasks write to the spool.
-/

namespace CommandShell

open FileSystem (Leads)

/-- A file that output is collected in. -/
structure Spool where
  /-- The files as they were when it was opened. -/
  origin : FileSystem
  place : Place
  executable : Bool
  /-- The number under which it is open. -/
  number : Nat
  /-- The numbers of other files that the shell writes to. -/
  aside : Nat → Prop
  /-- Whether no task may have the file. -/
  alone : Prop

/-- A task that does nothing to a spool but to write to it, and not even that if it may not have
it. -/
structure Task.Tame (d : Spool) (t : Task) : Prop where
  avoids : t.process.Avoids d.origin d.place
  apart : d.alone → ∀ x ∈ t.descriptors, x.2 ≠ .file d.number

/-- The scope in which nothing is done to a spool but what tasks write to it. -/
def Scope.around (d : Spool) : Scope where
  touches h := ∀ n, h = .file n → d.aside n
  strikes _ := True
  reaps _ := True
  admits process := process.Avoids d.origin d.place
  grips := True
  alters files files' := Leads files files' ∧ files'.get? d.place = files.get? d.place
  opens _ := False

namespace Kernel

variable {k k' : Kernel} {d : Spool} {content : Bytes}

/-- A spool holds some bytes: it is open for writing at its end, and nobody writes to it
otherwise. -/
structure Spools (d : Spool) (content : Bytes) (k : Kernel) : Prop where
  leads : Leads d.origin k.files
  file : k.files.get? d.place = some (.file (pack content) d.executable)
  number : d.number < k.nextNumber
  asides : ∀ m, d.aside m → m < k.nextNumber ∧ m ≠ d.number
  own : ∀ f, (d.number, f) ∈ k.opened → f.place = d.place ∧ f.readable = false ∧
    (if f.append then content.length else f.offset) = content.length
  others : ∀ m f, (m, f) ∈ k.opened → m ≠ d.number → f.writable = true ∨ d.aside m →
    f.place ≠ d.place
  kept : .file d.number ∈ k.held → ∃ f, (d.number, f) ∈ k.opened
  tasks : ∀ t ∈ k.tasks, t.Tame d

theorem mem_of_lookup {α : Type} {l : List (Nat × α)} {n : Nat} {x : α} (h : l.lookup n = some x) :
    (n, x) ∈ l := by
  obtain ⟨before, after, rfl, -⟩ := List.lookup_eq_some_iff.mp h
  simp

namespace Spools

/-- What is done neither to files nor to open files makes no difference. -/
theorem of_same (h : k.Spools d content) (hfiles : k'.files = k.files)
    (hopened : k'.opened = k.opened) (hheld : .file d.number ∈ k'.held → .file d.number ∈ k.held)
    (hnumber : k.nextNumber ≤ k'.nextNumber) (htasks : ∀ t ∈ k'.tasks, t.Tame d) :
      k'.Spools d content where
  leads := hfiles ▸ h.leads
  file := hfiles ▸ h.file
  number := Nat.lt_of_lt_of_le h.number hnumber
  asides m hm := ⟨Nat.lt_of_lt_of_le (h.asides m hm).1 hnumber, (h.asides m hm).2⟩
  own := hopened ▸ h.own
  others := hopened ▸ h.others
  kept hmem := hopened ▸ h.kept (hheld hmem)
  tasks := htasks

theorem release (h : k.Spools d content) (apart : List Handle) (x : Handle) :
    (k.release apart x).Spools d content := by
  unfold Kernel.release
  extract_lets isHeld
  split
  · next m =>
    split
    · exact h
    · next hfree =>
      refine ⟨h.leads, h.file, h.number, h.asides, fun f hf => h.own f (List.mem_filter.mp hf).1,
        fun m' f hf => h.others m' f (List.mem_filter.mp hf).1, fun hmem => ?_, h.tasks⟩
      obtain ⟨f, hf⟩ := h.kept hmem
      have hne : d.number ≠ m := by
        rintro rfl
        exact hfree (by simp [isHeld, Kernel.isHeld, hmem])
      exact ⟨f, List.mem_filter.mpr ⟨hf, by simpa using hne⟩⟩
  · split
    · exact h
    · exact h.of_same rfl rfl id (Nat.le_refl _) h.tasks
  · split
    · exact h
    · exact h.of_same rfl rfl id (Nat.le_refl _) h.tasks
  · exact h

theorem releaseAll (h : k.Spools d content) (apart hs : List Handle) :
    (k.releaseAll apart hs).Spools d content := by
  unfold Kernel.releaseAll
  induction hs generalizing k with
  | nil => exact h
  | cons x rest ih => exact ih (h.release apart x)

theorem letGo (h : k.Spools d content) (x : Handle) : (k.letGo x).Spools d content := by
  have hgone : Spools d content { k with held := k.held.erase x } :=
    h.of_same rfl rfl List.mem_of_mem_erase (Nat.le_refl _) h.tasks
  exact hgone.release [] x

/-- The state of another open file may change. -/
theorem setOpened (h : k.Spools d content) {m : Nat} {f f' : FileSystem.OpenFile}
    (hf : (m, f) ∈ k.opened) (hne : m ≠ d.number) (hplace : f'.place = f.place)
    (hwritable : f'.writable = f.writable) : (k.setOpened m f').Spools d content := by
  refine ⟨h.leads, h.file, h.number, h.asides, fun g hg => ?_, fun m' g hg hne' hw => ?_,
    fun hmem => ?_, h.tasks⟩
  · obtain ⟨⟨m₀, g₀⟩, hold, heq⟩ := List.mem_map.mp hg
    split at heq
    · exact absurd (Prod.mk.inj heq).1 hne
    · cases heq
      exact h.own g hold
  · obtain ⟨⟨m₀, g₀⟩, hold, heq⟩ := List.mem_map.mp hg
    split at heq
    · obtain ⟨rfl, rfl⟩ := Prod.mk.inj heq
      rw [hplace]
      exact h.others m f hf hne (hwritable ▸ hw)
    · cases heq
      exact h.others m' g hold hne' hw
  · obtain ⟨g, hg⟩ := h.kept hmem
    exact ⟨g, List.mem_map.mpr ⟨_, hg, if_neg hne.symm⟩⟩

/-- What is written to the spool comes after what it holds. -/
theorem writeFile_self (h : k.Spools d content) {f : FileSystem.OpenFile}
    (hf : k.opened.lookup d.number = some f) (bytes : ByteArray) :
    (k.writeFile d.number bytes).Spools d (content ++ unpack bytes) := by
  obtain ⟨hplace, hread, hend⟩ := h.own f (mem_of_lookup hf)
  have hfile := h.file
  rw [← hplace] at hfile
  have hsize : (pack content).size = content.length := List.size_toArray ..
  have hend' : (if f.append then (pack content).size else f.offset) = (pack content).size := by
    rwa [hsize]
  obtain ⟨hwritten, hsame⟩ := FileSystem.writeTo_end hfile hend' bytes
  have hoffset := FileSystem.writeTo_offset hfile hend' bytes
  obtain ⟨-, hleads, -, -⟩ := FileSystem.writeTo_elsewhere k.files f bytes
  unfold writeFile
  rw [hf]
  dsimp only
  generalize k.files.writeTo f bytes = written at hwritten hsame hoffset hleads
  obtain ⟨f', files⟩ := written
  dsimp only at hwritten hsame hoffset hleads ⊢
  refine ⟨h.leads.trans (hleads.trans (FileSystem.leads_touch ..)),
    ?_, h.number, h.asides, fun g hg => ?_, fun m g hg hne hw => ?_, fun hmem => ?_, h.tasks⟩
  · rw [FileSystem.get?_touch, ← hplace, hwritten]
    simp [pack, unpack, ByteArray.ext_iff]
  · obtain ⟨⟨m₀, g₀⟩, hold, heq⟩ := List.mem_map.mp hg
    have hg' : g = f' := by
      split at heq
      · exact (Prod.mk.inj heq).2.symm
      · next hm =>
        cases heq
        exact absurd rfl hm
    subst hg'
    rw [hoffset]
    have hlength : (content ++ unpack bytes).length = (pack content).size + bytes.size := by
      rw [List.length_append, hsize]
      rfl
    exact ⟨hplace, hread, by rw [hlength]; exact ite_self _⟩
  · obtain ⟨⟨m₀, g₀⟩, hold, heq⟩ := List.mem_map.mp hg
    split at heq
    · exact absurd (Prod.mk.inj heq).1.symm hne
    · cases heq
      exact h.others m g hold hne hw
  · obtain ⟨g, hg⟩ := h.kept hmem
    exact ⟨f', List.mem_map.mpr ⟨_, hg, if_pos rfl⟩⟩

/-- What is written to another file makes no difference. -/
theorem writeFile_other (h : k.Spools d content) {m : Nat} (hne : m ≠ d.number)
    (hw : d.aside m ∨ (k.opened.lookup m).any fun f => f.writable) (bytes : ByteArray) :
    (k.writeFile m bytes).Spools d content := by
  unfold writeFile
  split
  · exact h
  · next f hf =>
    have hmem := mem_of_lookup hf
    have hplace : f.place ≠ d.place := h.others m f hmem hne (by simpa [hf, or_comm] using hw)
    obtain ⟨hsame, hleads, hplace', hwritable⟩ := FileSystem.writeTo_elsewhere k.files f bytes
    generalize k.files.writeTo f bytes = written at hsame hleads hplace' hwritable
    obtain ⟨f', files⟩ := written
    dsimp only at hsame hleads hplace' hwritable ⊢
    have hset := h.setOpened hmem hne hplace' hwritable
    refine { hset with
      leads := h.leads.trans (hleads.trans (FileSystem.leads_touch ..))
      file := ?_ }
    rw [FileSystem.get?_touch, hsame.elsewhere _ hplace.symm, h.file]

/-- Opening a file makes no difference if it is another one, or is opened to be read only. -/
theorem openText (h : k.Spools d content) {base : Place} {text : String} {access : Access}
    {x : Handle} (hm : access.alters → k.files.Misses d.place base text access)
    (ho : k.openText base text access = .ok (x, k')) : k'.Spools d content ∧
      x ≠ .file d.number := by
  obtain ⟨rfl, rfl | rfl, -⟩ | ⟨found, node, files, -, -, hfound, rfl, rfl, hstill, hleads,
      hsame, -⟩ :=
    openText_cases ho
  · exact ⟨h, nofun⟩
  · exact ⟨h, nofun⟩
  · have hnew : k.nextNumber ≠ d.number := Nat.ne_of_gt h.number
    have helsewhere (ha : access.alters) : found ≠ d.place := (hm ha).1 found node hfound
    refine ⟨⟨h.leads.trans hleads, ?_, Nat.lt_succ_of_lt h.number,
      fun m hm => ⟨Nat.lt_succ_of_lt (h.asides m hm).1, (h.asides m hm).2⟩, fun f hf => ?_,
      fun m f hf hne hw => ?_, fun hmem => ?_, h.tasks⟩, by simpa using hnew⟩
    · by_cases ha : access.alters
      · exact (hsame.elsewhere _ (helsewhere ha).symm).trans h.file
      · exact hstill (by simpa using ha) ▸ h.file
    · rcases List.mem_cons.mp hf with heq | hold
      · exact absurd (Prod.mk.inj heq).1.symm hnew
      · exact h.own f hold
    · rcases List.mem_cons.mp hf with heq | hold
      · obtain ⟨rfl, rfl⟩ := Prod.mk.inj heq
        rcases hw with hw | hw
        · exact helsewhere (by simp_all [Access.alters])
        · exact absurd (h.asides _ hw).1 (Nat.lt_irrefl _)
      · exact h.others m f hold hne hw
    · obtain ⟨f, hf⟩ := h.kept hmem
      exact ⟨f, List.mem_cons_of_mem _ hf⟩

variable {t : Task}

theorem openFor (h : k.Spools d content) {base : Place} {text : String} {access : Access}
    {x : Handle} (hm : access.alters → ∀ fs, Leads d.origin fs → fs.Misses d.place base text access)
    (ho : k.openFor t base text access = .ok (x, k')) : k'.Spools d content ∧
      x ≠ .file d.number := by
  unfold Kernel.openFor at ho
  split at ho
  · next descriptor hfound =>
    obtain ⟨⟨found, node⟩, hlocated, hdescriptor⟩ := Option.bind_eq_some_iff.mp hfound
    have hread : ¬ access.alters := by
      intro ha
      have hnone := (hm ha k.files h.leads).2 found node
      cases hl : k.files.locateText .follow base text with
      | error e => simp [hl, Except.toOption] at hlocated
      | ok y =>
        obtain rfl : y = (found, node) := by simpa [hl, Except.toOption] using hlocated
        simp [hnone hl] at hdescriptor
    unfold Kernel.reopen at ho
    split at ho
    · cases ho
    · split at ho
      · cases ho
      · exact h.openText (fun ha => absurd ha hread) ho
    · split at ho <;> cases ho
      exact ⟨h, nofun⟩
    · cases ho
      refine ⟨h, ?_⟩
      split <;> exact nofun
    · cases ho
      refine ⟨h, ?_⟩
      split <;> exact nofun
    · next hfile _ _ _ _ =>
      cases ho
      exact ⟨h, hfile d.number⟩
  · exact h.openText (fun ha => hm ha k.files h.leads) ho

theorem readHandle (h : k.Spools d content) {x : Handle} {limit : Nat} {line : Bool}
    {bytes : ByteArray} (hr : k.readHandle t x limit line = .bytes bytes k') :
      k'.Spools d content := by
  unfold Kernel.readHandle at hr
  split at hr
  · cases hr
    exact h
  · cases hr
  · next m =>
    split at hr
    · cases hr
    · next f hf =>
      split at hr
      · cases hr
      · next hreadable =>
        cases hr
        have hmem := mem_of_lookup hf
        have hne : m ≠ d.number := by
          rintro rfl
          exact hreadable (by simp [(h.own f hmem).2.1])
        exact h.setOpened hmem hne rfl rfl
  · dsimp only at hr
    split at hr
    · split at hr <;> cases hr
      exact h
    · cases hr
      exact h.of_same rfl rfl id (Nat.le_refl _) h.tasks
  · cases hr

end Spools

/-- What a task writes to an open file with its next request. -/
def written (k : Kernel) (n : Nat) (t : Task) : Bytes :=
  match t.process with
  | .write descriptor bytes _ =>
    if t.handle? descriptor = some (.file n) ∧ (k.opened.lookup n).any fun f =>
      f.writable then unpack bytes else []
  | _ => []

section Tame

variable {t : Task}

theorem tame_proceed (ht : t.Tame d) {process : Process} (hp : process.Avoids d.origin d.place) :
    Task.Tame d { t with process } := ⟨hp, ht.apart⟩

theorem tame_handle (ht : t.Tame d) {descriptor : Nat} {x : Handle}
    (hx : t.handle? descriptor = some x) :
    d.alone → x ≠ .file d.number := fun ha => ht.apart ha _ (mem_of_lookup hx)

theorem tame_affect (ht : t.Tame d) (signal : Nat) : (affect t signal).task.Tame d := by
  unfold affect
  dsimp only
  repeat' split
  all_goals exact ⟨ht.avoids, ht.apart⟩

theorem tame_struck (ht : t.Tame d) (signal : Nat) : (struck t signal).Tame d := by
  have haffect := tame_affect ht signal
  unfold struck
  split <;> next ha =>
    rw [ha] at haffect
    first
    | exact haffect
    | exact ⟨trivial, haffect.apart⟩

theorem tame_notify (ht : t.Tame d) : (notify t).Tame d := by
  have haffect := tame_affect ht Signal.child
  unfold notify
  split <;> next ha =>
    rw [ha] at haffect
    exact haffect

end Tame

/-- A turn after which a spool holds some bytes, and the task that has taken it is tame. -/
structure Turn.Spools (d : Spool) (content : Bytes) (turn : Turn) : Prop where
  kernel : turn.kernel.Spools d content
  task : turn.task.Tame d

namespace Spools

variable {t : Task}

theorem proceed (h : k.Spools d content) (ht : t.Tame d) {process : Process}
    (hp : process.Avoids d.origin d.place) : (Turn.proceed k t process).Spools d content :=
  ⟨h, tame_proceed ht hp⟩

theorem redirect (h : k.Spools d content) (ht : t.Tame d) (descriptor : Nat)
    {target : Option Handle} (hx : ∀ x, target = some x → d.alone → x ≠ .file d.number) :
    (k.redirect t descriptor target).1.Spools d content ∧
    (k.redirect t descriptor target).2.Tame d := by
  have hdetach : (t.detach descriptor).Tame d :=
    ⟨ht.avoids, fun ha x hmem => ht.apart ha x (List.mem_filter.mp hmem).1⟩
  unfold Kernel.redirect
  dsimp only
  constructor
  · split
    · exact h.release ..
    · exact h
  · cases target with
    | none => exact hdetach
    | some x =>
      refine ⟨ht.avoids, fun ha y hmem => ?_⟩
      rcases List.mem_cons.mp hmem with rfl | hold
      · exact hx x rfl ha
      · exact hdetach.apart ha y hold

theorem writePipe (h : k.Spools d content) (ht : t.Tame d) (n descriptor : Nat) (bytes : ByteArray)
    {next : Except Errno Unit → Process} (hp : ∀ answer, (next answer).Avoids d.origin d.place) :
    (k.writePipe t n descriptor bytes next).Spools d content := by
  have haffect := tame_affect ht Signal.pipe
  have hset (content' : ByteArray) : (k.setPipe n content').Spools d content :=
    h.of_same rfl rfl id (Nat.le_refl _) h.tasks
  unfold Kernel.writePipe
  dsimp only
  split
  · exact h.proceed ht (hp _)
  · split
    · split <;> next ha =>
        rw [ha] at haffect
        first
        | exact h.proceed haffect (hp _)
        | exact ⟨h, haffect⟩
    · split
      · exact ⟨h, ht⟩
      · split
        · exact (hset _).proceed ht (hp _)
        · exact (hset _).proceed ht hp

theorem writeHandle (h : k.Spools d content) (ht : t.Tame d) {x : Handle} (descriptor : Nat)
    (bytes : ByteArray) {next : Except Errno Unit → Process}
    (hp : ∀ answer, (next answer).Avoids d.origin d.place) :
    (k.writeHandle t x descriptor bytes next).Spools d (content ++
      if x = .file d.number ∧ (k.opened.lookup d.number).any fun f => f.writable then unpack bytes
        else []) := by
  have hspilled (spilled : List Spill) : Spools d content { k with spilled } :=
    h.of_same rfl rfl id (Nat.le_refl _) h.tasks
  cases x with
  | null => simpa [Kernel.writeHandle] using h.proceed ht (hp _)
  | directory => simpa [Kernel.writeHandle] using h.proceed ht (hp _)
  | reader m => simpa [Kernel.writeHandle] using h.proceed ht (hp _)
  | tap tap => simpa [Kernel.writeHandle] using (hspilled _).proceed ht (hp _)
  | writer m => simpa [Kernel.writeHandle] using h.writePipe ht m descriptor bytes hp
  | file m =>
    simp only [Kernel.writeHandle, Handle.file.injEq]
    by_cases hm : m = d.number
    · subst hm
      by_cases hw : (k.opened.lookup d.number).any fun f => f.writable
      · obtain ⟨f, hf⟩ := Option.isSome_iff_exists.mp (Option.isSome_of_any hw)
        rw [if_pos hw, if_pos ⟨rfl, hw⟩]
        exact (h.writeFile_self hf bytes).proceed ht (hp _)
      · rw [if_neg hw, if_neg (fun hx => hw hx.2), List.append_nil]
        exact h.proceed ht (hp _)
    · rw [if_neg (fun hx => hm hx.1), List.append_nil]
      split
      · next hw => exact (h.writeFile_other hm (.inr hw) bytes).proceed ht (hp _)
      · exact h.proceed ht (hp _)

/-- The tasks may be others, as long as they are tame. -/
theorem of_tasks (h : k.Spools d content) (tasks : List Task) (htasks : ∀ t ∈ tasks, t.Tame d) :
    Spools d content { k with tasks } := h.of_same rfl rfl id (Nat.le_refl _) htasks

theorem putBack (h : k.Spools d content) (ht : t.Tame d) : (k.putBack t).Spools d content := by
  refine h.of_tasks _ fun u hu => ?_
  rcases List.mem_append.mp hu with hold | hnew
  · exact h.tasks u hold
  · exact List.mem_singleton.mp hnew ▸ ht

theorem reap (h : k.Spools d content) (pid : Nat) : (k.reap pid).Spools d content :=
  h.of_tasks _ fun u hu => h.tasks u (List.mem_filter.mp hu).1

theorem send (h : k.Spools d content) (pid signal : Nat) :
    (k.send pid signal).Spools d content := by
  refine h.of_tasks _ fun u hu => ?_
  obtain ⟨v, hv, rfl⟩ := List.mem_map.mp hu
  split
  · exact tame_struck (h.tasks v hv) signal
  · exact h.tasks v hv

/-- A request of a tame task adds what the task writes to the spool. -/
theorem step (h : k.Spools d content) (ht : t.Tame d) :
    (k.step t).Spools d (content ++ k.written d.number t) := by
  have havoids := ht.avoids
  have hredirect {k' : Kernel} (hk : k'.Spools d content) (descriptor : Nat)
      (target : Option Handle)
      (hx : ∀ x, target = some x → d.alone → x ≠ .file d.number) (process : Process)
      (hp : process.Avoids d.origin d.place) :
      (Turn.proceed (k'.redirect t descriptor target).1 (k'.redirect t descriptor target).2
        process).Spools d
        content :=
    (hk.redirect ht descriptor hx).1.proceed (hk.redirect ht descriptor hx).2 hp
  have hclock (nextPid clock : Nat) : Spools d content { k with nextPid, clock } :=
    h.of_same rfl rfl id (Nat.le_refl _) h.tasks
  cases hp : t.process <;> rw [hp] at havoids <;> simp only [Kernel.step, written, hp,
    List.append_nil]
  case exit => exact ⟨h, ht⟩
  case exhausted => exact ⟨h, ht⟩
  case look next => exact h.proceed ht (havoids _)
  case read descriptor limit line next =>
    split
    · exact h.proceed ht (havoids _)
    · split
      · next hr => exact (h.readHandle hr).proceed ht (havoids _)
      · exact h.proceed ht (havoids _)
      · split
        · exact ⟨h, ht⟩
        · exact h.proceed ht (havoids _)
  case drain descriptor taken next =>
    split
    · exact h.proceed ht (havoids _)
    · split
      · next hr =>
        split
        · exact (h.readHandle hr).proceed ht (havoids _)
        · exact (h.readHandle hr).proceed ht havoids
      · exact h.proceed ht (havoids _)
      · exact ⟨h, ht⟩
  case write descriptor bytes next =>
    cases hx : t.handle? descriptor with
    | none => simpa using h.proceed ht (havoids _)
    | some x => simpa using h.writeHandle ht (x := x) descriptor bytes havoids
  case openFile base text access descriptor next =>
    split
    · exact h.proceed ht (havoids.2 _)
    · next x k' ho =>
      obtain ⟨hk, hne⟩ := h.openFor havoids.1 ho
      refine hredirect hk descriptor (some x) (fun y hy _ => ?_) _ (havoids.2 _)
      obtain rfl := Option.some.inj hy
      exact hne
  case duplicate source descriptor next =>
    split
    · exact h.proceed ht (havoids _)
    · next x hx =>
      refine hredirect h descriptor (some x) (fun y hy => ?_) _ (havoids _)
      obtain rfl := Option.some.inj hy
      exact tame_handle ht hx
  case close descriptor next => exact hredirect h descriptor none nofun _ havoids
  case pipe reader writer next =>
    have hpipe : k.addPipe.2.Spools d content := h.of_same rfl rfl id (Nat.le_succ _) h.tasks
    have hend (x y : Handle) (hne : x ≠ .file d.number) (hy : some x = some y) :
        d.alone → y ≠ .file d.number :=
      fun _ => Option.some.inj hy ▸ hne
    obtain ⟨hk₁, ht₁⟩ := hpipe.redirect ht reader fun y => hend (.reader k.nextNumber) y nofun
    obtain ⟨hk₂, ht₂⟩ := hk₁.redirect ht₁ writer fun y => hend (.writer k.nextNumber) y nofun
    exact hk₂.proceed ht₂ havoids
  case inspect => exact h.proceed ht (havoids _)
  case fork child next =>
    have hchild : Task.Tame d
        { t with
          pid := k.nextPid, parent := t.pid, process := child, pending := [], wakeAt := none } :=
      ⟨havoids.1, ht.apart⟩
    exact ((hclock _ _).putBack hchild).proceed ht (havoids.2 _)
  case wait patience next =>
    split
    · exact (h.reap _).proceed ht (havoids _)
    · split
      · exact h.proceed ht (havoids _)
      · split
        · exact h.proceed ht (havoids _)
        · exact ⟨h, ht⟩
  case sleep duration next =>
    split
    · exact ⟨h, havoids, ht.apart⟩
    · split
      · exact ⟨h, havoids, ht.apart⟩
      · exact ⟨h, ht⟩
  case kill pid signal next =>
    split
    · have haffect := tame_affect ht signal
      split <;> next ha =>
        rw [ha] at haffect
        first
        | exact h.proceed haffect (havoids _)
        | exact ⟨h, haffect⟩
    · split
      · exact (h.send pid signal).proceed ht (havoids _)
      · exact h.proceed ht (havoids _)
  case dispose signal disposition next =>
    refine h.proceed (t := t.dispose signal disposition) ?_ havoids
    cases disposition <;> exact ⟨ht.avoids, ht.apart⟩
  case caught => exact ⟨h, havoids _, ht.apart⟩
  case become next =>
    have hkept : Task.Tame d { t with
        process := next ()
        descriptors := (t.descriptors.partition fun x => x.1 < Process.firstPrivate).1
        caught := []
        pending := [] } := by
      refine ⟨havoids, fun ha x hx => ht.apart ha x ?_⟩
      rw [List.partition_eq_filter_filter] at hx
      exact (List.mem_filter.mp hx).1
    exact ⟨(hclock _ _).releaseAll .., hkept⟩
  case self => exact h.proceed ht (havoids _ _ _)

/-- A process is started that may have the spool only if tasks may. -/
theorem spawn (h : k.Spools d content) {process : Process} (hp : process.Avoids d.origin d.place)
    {descriptors : List (Nat × Handle)} (hd : d.alone → ∀ x ∈ descriptors, x.2 ≠ .file d.number) :
    (k.spawn process descriptors).2.Spools d content := by
  refine h.of_same rfl rfl id (Nat.le_refl _) fun u hu => ?_
  rcases List.mem_append.mp hu with hold | hnew
  · exact h.tasks u hold
  · exact List.mem_singleton.mp hnew ▸ ⟨hp, hd⟩

theorem of_putBack (h : (k.putBack t).Spools d content) : k.Spools d content ∧ t.Tame d :=
  ⟨h.of_tasks k.tasks fun u hu => h.tasks u (List.mem_append_left _ hu),
    h.tasks t (List.mem_append_right _ List.mem_cons_self)⟩

/-- A task ends. -/
theorem finish (h : k.Spools d content) (t : Task) (e : Exit) :
    (k.finish t e).Spools d content := by
  unfold Kernel.finish
  extract_lets k₁ k₂ k₃
  have h₁ : k₁.Spools d content := by
    refine h.of_tasks _ fun u hu => ?_
    obtain ⟨v, hv, rfl⟩ := List.mem_map.mp hu
    have htame := h.tasks v (List.mem_filter.mp hv).1
    split
    · exact ⟨htame.avoids, htame.apart⟩
    · exact htame
  have h₂ : k₂.Spools d content := by
    refine h₁.of_tasks _ fun u hu => ?_
    obtain ⟨v, hv, rfl⟩ := List.mem_map.mp hu
    split
    · exact tame_notify (h₁.tasks v hv)
    · exact h₁.tasks v hv
  have h₃ : k₃.Spools d content := by
    unfold k₃
    split
    · exact h₂.putBack ⟨trivial, fun _ x hx => absurd hx List.not_mem_nil⟩
    · exact h₂
  exact h₃.releaseAll [] t.handles

theorem take (h : k.Spools d content) {pid : Nat} (ht : k.take pid = some (t, k')) :
    k'.Spools d content ∧ t.Tame d := by
  obtain ⟨u, hfind, hu⟩ := Option.map_eq_some_iff.mp ht
  obtain ⟨rfl, rfl⟩ := Prod.mk.inj hu
  exact ⟨h.of_tasks _ fun v hv => h.tasks v (List.mem_filter.mp hv).1,
    h.tasks u (List.mem_of_find?_eq_some hfind)⟩

end Spools

/-- What a task that may not have the spool writes is not for it. -/
theorem written_alone {t : Task} (ht : t.Tame d) (ha : d.alone) : k.written d.number t = [] := by
  unfold written
  split
  · rw [if_neg]
    rintro ⟨hx, -⟩
    exact tame_handle ht hx ha rfl
  · rfl

/-- The course of a system, with what tasks write to an open file in their turns. Whatever else is
done leaves alone what stands at a place. -/
inductive Course (n : Nat) (place : Place) (k : Kernel) : Bytes → Kernel → Prop where
  | refl : Course n place k [] k
  /-- The last task takes a turn. -/
  | turn {bytes : Bytes} {k' : Kernel} {t : Task} (h : Course n place k bytes (k'.putBack t)) :
    Course n place k (bytes ++ k'.written n t) (k'.step t).result
  | rest {bytes : Bytes} {k' k'' : Kernel} (h : Course n place k bytes k') (hm : Move .any k' k'')
    (hplace : k''.files.get? place = k'.files.get? place) : Course n place k bytes k''

theorem Turn.Spools.result {turn : Turn} (h : turn.Spools d content) :
    turn.result.Spools d content := by
  cases turn with
  | goesOn => exact h.kernel.putBack h.task
  | waits => exact h.kernel.putBack h.task
  | ends _ t e => exact h.kernel.finish t e

namespace Spools

/-- What is done to the system around a spool adds to it what tasks write there. -/
theorem move (h : k.Spools d content) (hm : Move (.around d) k k') :
    ∃ bytes, k'.Spools d (content ++ bytes) ∧ (d.alone → bytes = []) ∧
      ∀ {k₀ : Kernel} {before : Bytes}, Course d.number d.place k₀ before k →
        Course d.number d.place k₀ (before ++ bytes) k' := by
  -- all but a turn of a task leaves the spool as it is
  have hrest (hk : k'.Spools d content) : ∃ bytes, k'.Spools d (content ++ bytes) ∧
      (d.alone → bytes = []) ∧
      ∀ {k₀ : Kernel} {before : Bytes}, Course d.number d.place k₀ before k →
        Course d.number d.place k₀ (before ++ bytes) k' := by
    refine ⟨[], by simpa using hk, fun _ => rfl, fun hc => ?_⟩
    rw [List.append_nil]
    exact hc.rest (hm.mono (Scope.le_any _)) (hk.file.trans h.file.symm)
  cases hm with
  | files _ ha =>
    refine hrest { h with leads := h.leads.trans ha.1, file := ha.2.trans h.file }
  | pipe | number => exact hrest (h.of_same rfl rfl id (Nat.le_succ _) h.tasks)
  | «open» _ ho => exact absurd ho id
  | take htake =>
    obtain ⟨hk, ht⟩ := h.take htake
    exact hrest (hk.putBack ht)
  | step k t =>
    obtain ⟨hk, ht⟩ := h.of_putBack
    refine ⟨k.written d.number t, (hk.step ht).result, fun ha => written_alone ht ha,
      fun hc => hc.turn⟩
  | finish htake _ e =>
    exact hrest ((h.take htake).1.finish _ e)
  | send _ _ signal => exact hrest (h.send _ signal)
  | reap => exact hrest (h.reap _)
  | spawn _ hp hd =>
    exact hrest (h.spawn hp fun _ x hx heq => (h.asides _ (hd x hx _ heq)).2 rfl)
  | @write _ n ht bytes =>
    exact hrest (h.writeFile_other (h.asides n (ht n rfl)).2 (.inl (ht n rfl)) bytes)
  | @hold _ x _ ht =>
    refine hrest (h.of_same rfl rfl (fun hmem => ?_) (Nat.le_refl _) h.tasks)
    rcases List.mem_cons.mp hmem with heq | hold
    · exact absurd rfl (h.asides _ (ht _ heq.symm)).2
    · exact hold
  | letGo => exact hrest (h.letGo _)
  | _ => exact hrest (h.of_same rfl rfl id (Nat.le_refl _) h.tasks)

/-- Whatever is done to the system around a spool adds to it what tasks write there. -/
theorem moves (h : k.Spools d content) (hm : Moves (.around d) k k') :
    ∃ bytes, k'.Spools d (content ++ bytes) ∧ (d.alone → bytes = []) ∧
      Course d.number d.place k bytes k' := by
  induction hm with
  | refl => exact ⟨[], by simpa using h, fun _ => rfl, .refl⟩
  | tail _ hmove ih =>
    obtain ⟨bytes, hk, halone, hcourse⟩ := ih
    obtain ⟨more, hk', halone', hmore⟩ := hk.move hmove
    refine ⟨bytes ++ more, by simpa using hk', fun ha => ?_, hmore hcourse⟩
    rw [halone ha, halone' ha]
    rfl

end Spools

end Kernel

end CommandShell
