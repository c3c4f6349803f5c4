import CommandShell.Proofs.Flow.Chain
import Mathlib.Algebra.Order.BigOperators.Group.Finset

/-!
# Turns of programs in a chain

A program of a chain that is given a turn does what is a function of its input: it takes some of
what is there for it, adds some of what it is still going to write to where it writes, or ends. If
it can do none of this, it waits for the program before it to write or for the one behind it to
read.

## Main statements

- `Chain.Flows.alike`: the order of the tasks and the time make no difference.
- `Chain.Flows.proceed`, `Chain.Flows.finish`: a program that goes on, and one that ends.
- `Chain.Flows.step_read`, `Chain.Flows.step_drain`, `Chain.Flows.step_write`: the turns of programs
  that read or write.
- `Chain.Flows.step`: what the turn of a program comes to, and why it may have to wait.
-/

namespace CommandShell

open Kernel (Alike)

namespace Chain

variable {C : Chain} {shown : Bytes} {o o' : Outlook} {k k' : Kernel} {i : Nat}
  {err : Handle} {t : Task}

theorem supply_congr (hpipes : ∀ n, k'.pipeContent n = k.pipeContent n) (o : Outlook) (i : Nat) :
    C.supply o k' i = C.supply o k i := by
  cases i with
  | zero => rfl
  | succ i => simp only [supply, hpipes]

theorem manned_alike (h : k.Alike k') (i : Nat) : C.Manned k' i ↔ C.Manned k i := by
  simp only [Manned, h.tasks.mem_iff]

/-- The order of the tasks and the time make no difference. -/
theorem Flows.alike (h : C.Flows shown o k) (ha : k.Alike k') : C.Flows shown o k' where
  tasks t ht := by
    obtain ⟨i, err, hw⟩ | hc := h.tasks t (ha.tasks.mem_iff.mp ht)
    · exact .inl ⟨i, err, hw.mans, hw.stage, ha.takes hw.takes, hw.merged, hw.apart,
        supply_congr ha.pipeContent o i ▸ hw.returns⟩
    · exact .inr hc
  pids := (ha.tasks.map Task.pid).nodup_iff.mpr h.pids
  seats t ht u hu := h.seats t (ha.tasks.mem_iff.mp ht) u (ha.tasks.mem_iff.mp hu)
  reading i := ha.held ▸ h.reading i
  dry i hi hn hheld hm := h.dry i hi (fun hi => hn ((manned_alike ha i).mpr hi)) (ha.held ▸ hheld)
    ((manned_alike ha (i + 1)).mp hm)
  done i hi hn := h.done i hi fun hi => hn ((manned_alike ha i).mpr hi)
  port := ha.takes h.port
  landed := by
    obtain ⟨bytes, hlanded, harrived⟩ := h.landed
    exact ⟨bytes, ha.landed hlanded, harrived⟩

theorem Evolves.of_alike {own : Nat → Prop} (ha : k.Alike k') : C.Evolves own o k o k' where
  manned t ht _ _ hm := ⟨t, ha.tasks.mem_iff.mp ht, rfl, hm⟩
  idle _ _ _ := rfl
  lands := ⟨[], by simp, fun _ _ _ => rfl⟩
  work := Nat.le_refl _

/-- A program that has fewer turns to take. -/
theorem total_set_lt {n : Nat} {output : Channel → Bytes} {arrived : Bytes} (hi : i < C.length)
    (hn : n < o.work i) : C.total (o.set i n output arrived) < C.total o := by
  unfold total
  refine Finset.sum_lt_sum (fun j _ => ?_) ⟨i, Finset.mem_range.mpr hi, by simpa using hn⟩
  by_cases hj : j = i
  · subst hj
    simpa using Nat.le_of_lt hn
  · simp [hj]

/-- A system in which a program of the chain has come further. -/
structure Gains (C : Chain) (shown : Bytes) (o : Outlook) (k : Kernel) (o' : Outlook)
    (k' : Kernel) : Prop where
  flows : C.Flows shown o' k'
  evolves : C.Evolves (fun _ => False) o k o' k'
  less : C.total o' < C.total o
  still : k.Still k'

/-- The program of a stage has done something, or has ended, and the other programs have not
noticed. -/
theorem Flows.replace (h : C.Flows shown o (k.putBack t)) (hm : C.Mans i err t)
    {t' : Task} {n : Nat} {output : Channel → Bytes} {arrived : Bytes} (hn : n < o.work i)
    (htasks : k'.tasks = k.tasks ++ [t']) (hheld : k'.held = k.held) (hpid : t'.pid = t.pid)
    (hmans : ∀ j err', C.Mans j err' t' → C.Mans j err' t) (hnext : (∃ err',
      C.Works (o.set i n output arrived) k' i err' t') ∨ t'.Corpse ∧ ∀ c, output c = [])
    (hsupply : ∀ j, j ≠ i → C.Manned k' j →
      C.supply (o.set i n output arrived) k' j = C.supply o k j)
    (htakes : ∀ x, k.Takes x → k'.Takes x)
    (hlanded : ∃ bytes, k'.Landed C.port bytes ∧ arrived = shown ++ bytes)
    (hlands : ∃ more : Account, arrived = o.arrived ++ more.taken C.merges ∧
      ∀ j, j + 1 = C.length → ∀ c,
        o.coming j c = more.on c ++ (o.set i n output arrived).coming j c)
    (hstill : k.Still k') :
    C.Gains shown o (k.putBack t) (o.set i n output arrived) k' := by
  have hself : t ∈ (k.putBack t).tasks := by simp
  have hw := h.works hself hm
  -- Every other task runs the program of another stage.
  have hother (u : Task) (hu : u ∈ k.tasks) (j : Nat) (err' : Handle)
      (hmj : C.Mans j err' u) : j ≠ i := by
    rintro rfl
    have hpids := h.pids
    rw [Kernel.tasks_putBack, List.map_append, List.nodup_append] at hpids
    exact hpids.2.2 u.pid (List.mem_map_of_mem hu) t.pid (by simp)
      (h.seats u (by simp [hu]) t hself j err' err hmj hm)
  have hmem (u : Task) : u ∈ k'.tasks ↔ u ∈ k.tasks ∨ u = t' := by simp [htasks]
  have hseat (u : Task) (hu : u ∈ k'.tasks) (j : Nat) (err' : Handle) (hmj : C.Mans j err' u) :
      ∃ u' ∈ (k.putBack t).tasks, u'.pid = u.pid ∧ C.Mans j err' u' := by
    rcases (hmem u).mp hu with hold | rfl
    · exact ⟨u, by simp [hold], rfl, hmj⟩
    · exact ⟨t, hself, hpid.symm, hmans j err' hmj⟩
  have hmanned (j : Nat) (hj : C.Manned k' j) : C.Manned (k.putBack t) j := by
    obtain ⟨u, hu, err', hmj⟩ := hj
    obtain ⟨u', hu', -, hmj'⟩ := hseat u hu j err' hmj
    exact ⟨u', hu', err', hmj'⟩
  have hmanned' (j : Nat) (hne : j ≠ i) (hj : C.Manned (k.putBack t) j) : C.Manned k' j := by
    obtain ⟨u, hu, err', hmj⟩ := hj
    rcases List.mem_append.mp hu with hold | hnew
    · exact ⟨u, (hmem u).mpr (.inl hold), err', hmj⟩
    · obtain rfl := List.mem_singleton.mp hnew
      exact absurd (hmj.unique hm).1 hne
  have hdone (hn : ¬ C.Manned k' i) (c : Channel) : output c = [] := by
    obtain ⟨err', hw'⟩ | ⟨-, hnone⟩ := hnext
    · exact absurd ⟨t', (hmem t').mpr (.inr rfl), err', hw'.mans⟩ hn
    · exact hnone c
  refine ⟨⟨fun u hu => ?_, ?_, fun u hu v hv j err₁ err₂ hmu hmv => ?_, fun j =>
    hheld ▸ h.reading j,
    fun j hj hnm hw' hm' => ?_, fun j hj hnm c => ?_, htakes _ h.port, hlanded⟩,
    ⟨hseat, fun j hj _ => ?_, hlands, Nat.le_of_lt (total_set_lt hw.stage hn)⟩,
    total_set_lt hw.stage hn, hstill.opened, hstill.kept, hstill.files⟩
  · rcases (hmem u).mp hu with hold | rfl
    · obtain ⟨j, err', hwu⟩ | hc := h.tasks u (by simp [hold])
      · have hne := hother u hold j err' hwu.mans
        refine .inl ⟨j, err', hwu.mans, hwu.stage, htakes _ hwu.takes, hwu.merged, hwu.apart, ?_⟩
        rw [hsupply j hne ⟨u, hu, err', hwu.mans⟩, Outlook.work_set_of_ne _ _ _ _ _ hne,
          Outlook.coming_set_of_ne _ _ _ _ _ hne]
        exact hwu.returns
      · exact .inr hc
    · obtain ⟨err', hw'⟩ | ⟨hc, -⟩ := hnext
      · exact .inl ⟨i, err', hw'⟩
      · exact .inr hc
  · have hpids := h.pids
    rw [Kernel.tasks_putBack, List.map_append] at hpids
    rw [htasks, List.map_append]
    simpa [hpid] using hpids
  · obtain ⟨u', hu', hpu, hmu'⟩ := hseat u hu j err₁ hmu
    obtain ⟨v', hv', hpv, hmv'⟩ := hseat v hv j err₂ hmv
    rw [← hpu, ← hpv]
    exact h.seats u' hu' v' hv' j err₁ err₂ hmu' hmv'
  · by_cases hji : j = i
    · subst hji
      simpa using hdone hnm .out
    · rw [Outlook.coming_set_of_ne _ _ _ _ _ hji]
      exact h.dry j hj (fun hold => hnm (hmanned' j hji hold)) (hheld ▸ hw') (hmanned (j + 1) hm')
  · by_cases hji : j = i
    · subst hji
      simpa using hdone hnm c
    · rw [Outlook.coming_set_of_ne _ _ _ _ _ hji]
      exact h.done j hj (fun hold => hnm (hmanned' j hji hold)) c
  · refine Outlook.coming_set_of_ne _ _ _ _ _ ?_
    rintro rfl
    exact hj ⟨t, hself, err, hm⟩

/-- What a program reads does not depend on what it writes itself. -/
theorem supply_set_of_ne {j n : Nat} {output : Channel → Bytes} {arrived : Bytes} (h : j ≠ i + 1)
    (k : Kernel) : C.supply (o.set i n output arrived) k j = C.supply o k j := by
  cases j with
  | zero => rfl
  | succ j =>
    simp only [supply, Outlook.coming_set_of_ne o i n output arrived (fun hj =>
      h (congrArg (· + 1) hj))]

theorem supply_set_coming {j n : Nat} {arrived : Bytes} (k : Kernel) :
    C.supply (o.set i n (o.coming i) arrived) k j = C.supply o k j := by
  simp only [Outlook.set, Function.update_eq_self]
  rfl

/-- The program of a stage goes on. -/
theorem Flows.proceed (h : C.Flows shown o (k.putBack t)) (hm : C.Mans i err t)
    {process : Process} {n : Nat} (output : Channel → Bytes) (arrived : Bytes) (hn : n < o.work i)
    (htasks : k'.tasks = k.tasks) (hheld : k'.held = k.held)
    (hreturns : process.Returns n (C.supply (o.set i n output arrived) k' i) output) (hsupply : ∀ j,
      j ≠ i → j < C.length → C.supply (o.set i n output arrived) k' j = C.supply o k j)
    (htakes : ∀ x, k.Takes x → k'.Takes x)
    (hlanded : ∃ bytes, k'.Landed C.port bytes ∧ arrived = shown ++ bytes)
    (hlands : ∃ more : Account, arrived = o.arrived ++ more.taken C.merges ∧
      ∀ j, j + 1 = C.length → ∀ c,
        o.coming j c = more.on c ++ (o.set i n output arrived).coming j c)
    (hstill : k.Still k') :
    C.Gains shown o (k.putBack t) (o.set i n output arrived) (k'.putBack { t with process }) := by
  have hw := h.works (by simp) hm
  have hback : (k'.putBack { t with process }).tasks = k.tasks ++ [{ t with process }] := by
    simp [htasks]
  refine h.replace hm hn hback hheld rfl
    (fun j err' hmj =>
      ⟨hmj.descriptors, hmj.pid, hmj.parent, hmj.ignored, hmj.caught, hmj.pending, hmj.wakeAt,
      hmj.stopped, hmj.ended⟩)
    (.inl ⟨err, hm.process process, hw.stage, htakes _ hw.takes, hw.merged, hw.apart, ?_⟩)
    (fun j hj hmj => hsupply j hj ?_) htakes hlanded hlands ⟨hstill.opened, hstill.kept,
      hstill.files⟩
  · rw [Outlook.work_set_self, Outlook.coming_set_self]
    exact hreturns
  · obtain ⟨u, hu, err', hmu⟩ := hmj
    rcases List.mem_append.mp hu with hold | hnew
    · exact (h.works (by simp [← htasks, hold]) hmu).stage
    · obtain rfl := List.mem_singleton.mp hnew
      exact absurd (hmu.unique (hm.process process)).1 hj

/-- The program of a stage goes on without having written anything. -/
theorem Flows.proceed_silent (h : C.Flows shown o (k.putBack t)) (hm : C.Mans i err t)
    {process : Process} {n : Nat} (hn : n < o.work i) (htasks : k'.tasks = k.tasks)
    (hheld : k'.held = k.held) (hreturns : process.Returns n (C.supply o k' i) (o.coming i))
    (hpipes : ∀ m, C.input i ≠ .reader m → k'.pipeContent m = k.pipeContent m)
    (hopened : k'.opened = k.opened) (hfiles : k'.files = k.files)
    (hspilled : k'.spilled = k.spilled) :
    ∃ o', C.Gains shown o (k.putBack t) o' (k'.putBack { t with process }) := by
  refine ⟨_, h.proceed hm _ o.arrived hn htasks hheld (supply_set_coming k' ▸ hreturns)
    (fun j hj _ => ?_)
    (fun _ hx => hx.congr hheld hopened) ?_ ⟨[], by simp, fun j _ c => ?_⟩ (.of_eq hopened hfiles)⟩
  · rw [supply_set_coming]
    cases j with
    | zero => rfl
    | succ j =>
      have hpipe : C.input i ≠ .reader (C.base + j) := fun heq => hj (input_eq_reader.mp heq).symm
      simp only [supply, hpipes _ hpipe]
  · obtain ⟨bytes, hlanded, harrived⟩ := h.landed
    exact ⟨bytes, hlanded.congr hspilled hopened hfiles, harrived⟩
  · simp [Outlook.set]

/-- Files that the program of a stage has open are held by the shell as well. -/
theorem Flows.file_held (h : C.Flows shown o (k.putBack t)) (hm : C.Mans i err t) {x : Handle}
    (hx : x ∈ t.handles) {m : Nat} (hfile : x = .file m) : x ∈ k.held := by
  subst hfile
  have hheld (y : Handle) (hy : k.Takes y) (hym : .file m = y) : Handle.file m ∈ k.held := by
    subst hym
    exact hy.1
  rw [hm.handles] at hx
  simp only [List.mem_cons, List.not_mem_nil, or_false] at hx
  obtain hx | hx | hx := hx
  · cases i <;> simp [input] at hx
  · unfold output at hx
    split at hx
    · cases hx
    · exact hheld _ h.port hx
  · exact hheld err (h.works (by simp) hm).takes hx

/-- The program of a stage ends: it has nothing left to write, or nobody is going to read it. -/
theorem Flows.finish (h : C.Flows shown o (k.putBack t)) (hm : C.Mans i err t) (e : Exit)
    (hlost : (∀ c, o.coming i c = []) ∨ i + 1 < C.length ∧ ¬ C.Manned (k.putBack t) (i + 1)) :
    C.Gains shown o (k.putBack t) (o.set i 0 (fun _ => []) o.arrived) (k.finish t e) := by
  have hw := h.works (by simp) hm
  have hshell (u : Task) (hu : u ∈ (k.putBack t).tasks) : u.parent = Kernel.shellPid ∧
      u.pid ≠ Kernel.shellPid := by
    obtain ⟨j, err', hwu⟩ | hc := h.tasks u hu
    · exact ⟨hwu.mans.parent, hwu.mans.pid⟩
    · exact ⟨hc.parent, hc.pid⟩
  have hsheds := Kernel.sheds_finish (k := k) (fun u hu => hshell u (by simp [hu])) hm.pid hm.parent
    (fun x hx m hfile => h.file_held hm hx hfile) e
  generalize k.finish t e = k' at hsheds
  have hcorpse : Task.Corpse { t with ended := some e, descriptors := [], process := .exhausted } :=
    ⟨rfl, rfl, hm.pid, hm.parent, hm.wakeAt⟩
  refine h.replace hm hw.returns.pos hsheds.tasks hsheds.held rfl
    (fun j err' hmj => absurd hmj (not_mans_of_corpse hcorpse)) (.inr ⟨hcorpse, fun _ => rfl⟩)
      (fun j hj hmj => ?_)
    (fun _ hx => hx.congr hsheds.held hsheds.opened) ?_ ⟨[], by simp, fun j hj c => ?_⟩
    (.of_eq hsheds.opened hsheds.files)
  · -- What is in a pipe stays if somebody reads it.
    have hpipe (m : Nat) (hmm : C.Manned k' (m + 1)) :
        k'.pipeContent (C.base + m) = k.pipeContent (C.base + m) := by
      refine hsheds.pipes _ (Kernel.isHeld_iff.mpr (.inr ?_))
      obtain ⟨u, hu, err', hmu⟩ := hmm
      exact ⟨u, hsheds.tasks ▸ hu, by simp [hmu.handles, input]⟩
    cases j with
    | zero => rfl
    | succ j =>
      simp only [supply, hpipe j hmj]
      by_cases hji : j = i
      · subst hji
        obtain hnone | ⟨-, hnobody⟩ := hlost
        · rw [Outlook.coming_set_self, hnone]
        · obtain ⟨u, hu, err', hmu⟩ := hmj
          rw [hsheds.tasks] at hu
          rcases List.mem_append.mp hu with hold | hnew
          · exact absurd ⟨u, by simp [hold], err', hmu⟩ hnobody
          · exact absurd (List.mem_singleton.mp hnew ▸ hmu) (not_mans_of_corpse hcorpse)
      · rw [Outlook.coming_set_of_ne _ _ _ _ _ hji]
  · obtain ⟨bytes, hlanded, harrived⟩ := h.landed
    exact ⟨bytes, hlanded.congr hsheds.spilled hsheds.opened hsheds.files, harrived⟩
  · by_cases hji : j = i
    · subst hji
      obtain hnone | ⟨hlt, -⟩ := hlost
      · simp [hnone c]
      · omega
    · simp [hji]

/-- The program of a stage waits for the one before it to write, or for the one behind it to
read. -/
def Blocked (C : Chain) (k : Kernel) (i : Nat) : Prop :=
  (∃ j, i = j + 1 ∧ (k.pipeContent (C.base + j)).size = 0 ∧
    k.isHeld (.writer (C.base + j)) = true) ∨
    i + 1 < C.length ∧ 0 < (k.pipeContent (C.base + i)).size ∧
      k.isHeld (.reader (C.base + i)) = true

/-- What the turn of the program of a stage comes to. -/
inductive Strides (C : Chain) (shown : Bytes) (o : Outlook) (k : Kernel) (i : Nat) (t : Task) :
    Kernel.Turn → Prop where
  | goesOn {o' : Outlook} {k' : Kernel} {process : Process}
    (h : C.Gains shown o (k.putBack t) o' (k'.putBack { t with process })) :
    Strides C shown o k i t (.goesOn k' { t with process })
  | waits (h : C.Blocked (k.putBack t) i) : Strides C shown o k i t (.waits k t)
  | ends {o' : Outlook} {e : Exit} (h : C.Gains shown o (k.putBack t) o' (k.finish t e)) :
    Strides C shown o k i t (.ends k t e)

section Pieces

/-- Something is read of what is there, unless nothing is asked for. -/
theorem readSize_bounds {content : ByteArray} {limit : Nat} (hlimit : 0 < limit)
    (hcontent : 0 < content.size) (line : Bool) : 0 < Kernel.readSize content limit line ∧
      Kernel.readSize content limit line ≤ limit ∧
      Kernel.readSize content limit line ≤ content.size := by
  unfold Kernel.readSize
  dsimp only
  split
  · split <;> omega
  · omega

theorem length_unpack (content : ByteArray) : (unpack content).length = content.size := rfl

/-- What is read and what is left. -/
theorem unpack_split {content : ByteArray} {size : Nat} :
    unpack content = unpack (content.extract 0 size) ++
      unpack (content.extract size content.size) := by
  rw [unpack_extract, unpack_extract, List.drop_zero, ← length_unpack, List.take_length,
    List.take_append_drop]

theorem unpack_eq_nil {content : ByteArray} (h : content.size = 0) : unpack content = [] :=
  List.length_eq_zero_iff.mp h

theorem pack_append (a b : Bytes) : pack (a ++ b) = pack a ++ pack b := by
  simp [pack, ByteArray.ext_iff]

/-- What reading from a pipe gives. -/
inductive Pipes (k : Kernel) (t : Task) (n limit : Nat) : Kernel.Reading → Prop where
  | nothing (hnone : (k.pipeContent n).size = 0) (hheld : k.isHeldWith t (.writer n) = true) :
      Pipes k t n limit .nothing
  | ended (hnone : (k.pipeContent n).size = 0) (hheld : k.isHeldWith t (.writer n) = false) :
    Pipes k t n limit (.bytes ByteArray.empty k)
  | piece {size : Nat} (hpos : 0 < size) (hlimit : size ≤ limit)
      (hsize : size ≤ (k.pipeContent n).size) :
    Pipes k t n limit (.bytes ((k.pipeContent n).extract 0 size)
      (k.setPipe n ((k.pipeContent n).extract size (k.pipeContent n).size)))

theorem pipes_readHandle (k : Kernel) (t : Task) (n : Nat) {limit : Nat} (hlimit : 0 < limit)
    (line : Bool) : Pipes k t n limit (k.readHandle t (.reader n) limit line) := by
  simp only [Kernel.readHandle]
  split
  · next hnone =>
    split
    · next hheld => exact .nothing hnone hheld
    · next hheld => exact .ended hnone (by simpa using hheld)
  · next hsome =>
    obtain ⟨hpos, hle, hsize⟩ := readSize_bounds hlimit (Nat.pos_of_ne_zero hsome) line
    exact .piece hpos hle hsize

end Pieces

section Step

variable (h : C.Flows shown o (k.putBack t)) (hm : C.Mans i err t)
include h hm

/-- The program of a stage reads from its pipe. -/
theorem Flows.read_pipe {j limit : Nat} (hlimit : 0 < limit) (line : Bool) (hi : i = j + 1)
    (resume : ByteArray → Process)
    (hresume : ∀ piece rest, C.supply o k i = piece ++ rest → (piece = [] → rest = []) →
      piece.length ≤ limit → ∃ n < o.work i, (resume (pack piece)).Returns n rest (o.coming i)) :
    (∃ b k' o', k.readHandle t (.reader (C.base + j)) limit line = .bytes b k' ∧
        C.Gains shown o (k.putBack t) o' (k'.putBack { t with process := resume b })) ∨
      k.readHandle t (.reader (C.base + j)) limit line = .nothing ∧ C.Blocked (k.putBack t) i := by
  subst hi
  have hw := h.works (by simp) hm
  have hread := pipes_readHandle k t (C.base + j) hlimit line
  generalize k.readHandle t (.reader (C.base + j)) limit line = reading at hread
  cases hread with
  | nothing hnone hheld =>
    exact .inr ⟨rfl, .inl ⟨j, rfl, hnone, Kernel.isHeldWith_eq .. ▸ hheld⟩⟩
  | ended hnone hheld =>
    have hlt : j + 1 < C.length := hw.stage
    have hfree : ¬ (k.putBack t).isHeld (.writer (C.base + j)) = true := by
      rw [← Kernel.isHeldWith_eq, hheld]
      simp
    rw [h.isHeld_writer hlt, not_or] at hfree
    have hempty : C.supply o k (j + 1) = [] := by
      have hdry := h.dry j hlt hfree.2 hfree.1 ⟨t, by simp, err, hm⟩
      simp [supply, hdry, unpack_eq_nil hnone]
    obtain ⟨n, hn, hreturns⟩ := hresume [] [] hempty (fun _ => rfl) (Nat.zero_le _)
    obtain ⟨o', hgains⟩ := h.proceed_silent hm hn rfl rfl (hempty.symm ▸ hreturns :
      (resume (pack [])).Returns n (C.supply o k (j + 1)) (o.coming (j + 1))) (fun _ _ =>
        rfl) rfl rfl rfl
    exact .inl ⟨_, k, o', rfl, hgains⟩
  | @piece size hpos hle hsize =>
    obtain ⟨b, hb⟩ : ∃ b, b = (k.pipeContent (C.base + j)).extract 0 size := ⟨_, rfl⟩
    obtain ⟨left, hleft⟩ : ∃ left,
        left = (k.pipeContent (C.base + j)).extract size (k.pipeContent (C.base + j)).size :=
      ⟨_, rfl⟩
    have hsplit : unpack (k.pipeContent (C.base + j)) = unpack b ++ unpack left :=
      hb ▸ hleft ▸ unpack_split
    have hlength : (unpack b).length = size := by
      rw [hb, unpack_extract, List.drop_zero, List.length_take, length_unpack]
      omega
    have hsupply : C.supply o k (j + 1) = unpack b ++ (unpack left ++ o.coming j .out) := by
      rw [← List.append_assoc, ← hsplit]
      rfl
    have hrest : C.supply o (k.setPipe (C.base + j) left) (j + 1) = unpack left ++
        o.coming j .out := by
      simp only [supply, Kernel.pipeContent_setPipe_self]
    rw [← hb, ← hleft]
    obtain ⟨n, hn, hreturns⟩ :=
      hresume _ _ hsupply (fun hnil => absurd hlength (by simp [hnil, hpos.ne])) (hlength ▸ hle)
    rw [pack_unpack, ← hrest] at hreturns
    obtain ⟨o', hgains⟩ := h.proceed_silent hm hn
      (show (k.setPipe (C.base + j) left).tasks = k.tasks from rfl) rfl hreturns
      (fun m hne => Kernel.pipeContent_setPipe_of_ne k (fun heq => hne (by rw [heq]; rfl)) left) rfl
        rfl rfl
    exact .inl ⟨_, _, o', rfl, hgains⟩

/-- What is written for the output of the chain comes to its port. -/
theorem Flows.port_iff {c : Channel} {x : Handle} (hx : t.handle? c.descriptor = some x) :
    C.port = .nowhere ∨ (x = C.port.handle ↔ i + 1 = C.length ∧ (c = .out ∨ C.merges = true)) := by
  have hw := h.works (by simp) hm
  cases c with
  | out =>
    obtain rfl : C.output i = x := Option.some.inj (hm.handle_out.symm.trans hx)
    refine .inr ⟨fun heq => ⟨?_, .inl rfl⟩, fun hi => if_neg (by omega)⟩
    by_contra hlt
    have hstage := hw.stage
    refine h.port.ne_writer (C.base + i) (heq.symm.trans (if_pos ?_))
    omega
  | err =>
    obtain rfl : err = x := Option.some.inj (hm.handle_err.symm.trans hx)
    by_cases hnowhere : C.port = .nowhere
    · exact .inl hnowhere
    · refine .inr ⟨fun heq => ?_, fun hi => hw.merged hi.1 (hi.2.resolve_left (by simp))⟩
      obtain ⟨hi, hmerges⟩ := (hw.apart heq).resolve_right hnowhere
      exact ⟨hi, .inr hmerges⟩

/-- The program of a stage writes to a handle that takes it. -/
theorem Flows.write_port {c : Channel} {n : Nat} {x : Handle} {bytes : ByteArray}
    {next : Except Errno Unit → Process} {rest : Channel → Bytes}
    (hx : t.handle? c.descriptor = some x) (ht : k.Takes x) (hn : n < o.work i)
    (hreturns : (next (.ok ())).Returns n (C.supply o k i) rest)
    (hout : ∀ c', o.coming i c' = (if c' = c then unpack bytes else []) ++ rest c') :
    ∃ o' k', k.writeHandle t x c.descriptor bytes next = .proceed k' t (next (.ok ())) ∧
      C.Gains shown o (k.putBack t) o' (k'.putBack { t with process := next (.ok ()) }) := by
  obtain ⟨k', hwrites, hk⟩ := Kernel.writeHandle_takes ht t c.descriptor bytes next
  have hpipes (m : Nat) : k'.pipeContent m = k.pipeContent m := by
    unfold Kernel.pipeContent
    rw [hk.pipes]
  obtain ⟨content, hlanded, harrived⟩ := h.landed
  obtain ⟨more, hmore⟩ : ∃ more : Account,
      more = if i + 1 = C.length then Account.of c (unpack bytes) else [] := ⟨_, rfl⟩
  have htaken : C.port = .nowhere ∨
      more.taken C.merges = if x = C.port.handle then unpack bytes else [] := by
    refine (h.port_iff hm hx).imp id fun hiff => ?_
    rw [hmore]
    by_cases hi : i + 1 = C.length
    · rw [if_pos hi, Account.taken_of]
      simp [hiff, hi]
    · rw [if_neg hi, if_neg (fun hx => hi (hiff.mp hx).1), Account.taken_nil]
  refine ⟨_, k', hwrites, h.proceed hm rest (o.arrived ++ more.taken C.merges) hn hk.tasks hk.held
    ?_ (fun j hj hlt => ?_) hk.takes ?_ ⟨more, rfl, fun j hj c' => ?_⟩ hk.still⟩
  · rw [supply_set_of_ne (by omega), supply_congr hpipes]
    exact hreturns
  · by_cases hji : j = i + 1
    · -- A program before the last one writes its output to a pipe.
      have herr : c = .err := by
        cases c with
        | out =>
          obtain rfl : C.output i = x := Option.some.inj (hm.handle_out.symm.trans hx)
          exact absurd (if_pos (by omega)) (ht.ne_writer (C.base + i))
        | err => rfl
      subst hji herr
      simp only [supply, Outlook.coming_set_self, hpipes, hout .out, reduceCtorEq, if_false,
        List.nil_append]
    · rw [supply_set_of_ne hji, supply_congr hpipes]
  · obtain hnowhere | htaken := htaken
    · exact ⟨content ++ more.taken C.merges, by rw [hnowhere]; trivial, by rw [harrived,
        List.append_assoc]⟩
    · exact ⟨_, hk.landed C.port content hlanded, by rw [htaken, harrived, List.append_assoc]⟩
  · by_cases hji : j = i
    · subst hji
      rw [Outlook.coming_set_self, hout c', hmore, if_pos hj, Account.on_of]
    · have hnone : more = [] := hmore.trans (if_neg (by omega))
      simp [hnone, hji]

/-- The program of a stage before the last one fills its pipe. -/
theorem Flows.fill {n : Nat} (part : ByteArray) {process : Process} {rest : Channel → Bytes}
    (hlt : i + 1 < C.length) (hn : n < o.work i)
    (hreturns : process.Returns n (C.supply o k i) rest)
    (hout : ∀ c, o.coming i c = (if c = .out then unpack part else []) ++ rest c) :
    ∃ o', C.Gains shown o (k.putBack t) o'
      ((k.setPipe (C.base + i) (k.pipeContent (C.base + i) ++ part)).putBack
        { t with process }) := by
  have hpipe {j : Nat} (hj : j ≠ i + 1) : C.supply (o.set i n rest o.arrived)
      (k.setPipe (C.base + i) (k.pipeContent (C.base + i) ++ part)) j = C.supply o k j := by
    rw [supply_set_of_ne hj]
    cases j with
    | zero => rfl
    | succ j =>
      simp only [supply, Kernel.pipeContent_setPipe_of_ne k (by omega : C.base + j ≠ C.base + i)]
  refine ⟨_, h.proceed hm rest o.arrived hn rfl rfl ?_ (fun j hj _ => ?_) (fun _ hx => hx)
    h.landed ⟨[], by simp, fun j hj c => ?_⟩ (.of_eq rfl rfl)⟩
  · rwa [hpipe (by omega)]
  · by_cases hji : j = i + 1
    · subst hji
      simp only [supply, Kernel.pipeContent_setPipe_self, Outlook.coming_set_self, hout .out,
        if_true, unpack_append, List.append_assoc]
    · exact hpipe hji
  · have hji : j ≠ i := by omega
    simp [hji]

/-- The program of a stage before the last one writes to its pipe. -/
theorem Flows.write_pipe {n : Nat} {bytes : ByteArray} {next : Except Errno Unit → Process}
    {rest : Channel → Bytes} (hlt : i + 1 < C.length) (hn : n + bytes.size < o.work i)
    (hreturns : (next (.ok ())).Returns n (C.supply o k i) rest)
    (hout : ∀ c, o.coming i c = (if c = .out then unpack bytes else []) ++ rest c) :
    C.Strides shown o k i t (k.writePipe t (C.base + i) Channel.out.descriptor bytes next) := by
  unfold Kernel.writePipe
  extract_lets content room filled
  split
  · next hnone =>
    have hcoming : rest = o.coming i := funext fun c => by simp [hout, unpack_eq_nil hnone]
    obtain ⟨o', hgains⟩ :=
      h.proceed_silent hm (by omega : n < o.work i) rfl rfl (hcoming ▸ hreturns) (fun _ _ => rfl)
      rfl rfl rfl
    exact .goesOn hgains
  · next hsome =>
    rw [Kernel.isHeldWith_eq]
    split
    · next hfree =>
      have hdies : Kernel.affect t Signal.pipe = .dies t Signal.pipe := by
        simp [Kernel.affect, hm.ignored, hm.caught, Signal.pipe, Signal.resume, Signal.kill,
          Signal.stop, Signal.isStop, Signal.isIdle, Signal.child]
      rw [hdies]
      refine .ends (h.finish hm _ (.inr ⟨hlt, fun hmanned => ?_⟩))
      rw [(h.isHeld_reader i).mpr hmanned] at hfree
      simp at hfree
    · next hheld =>
      split
      · next hfull =>
        refine .waits (.inr ⟨hlt, ?_, by simpa using hheld⟩)
        have hfew : room = 0 ∨ bytes.size ≤ Kernel.pipeAtom ∧ room < bytes.size := by
          simpa using hfull
        have hroom : room = 65536 - (k.pipeContent (C.base + i)).size := rfl
        change 0 < (k.pipeContent (C.base + i)).size
        unfold Kernel.pipeAtom at hfew
        omega
      · next hroom =>
        have hpos : room ≠ 0 := by
          rintro hzero
          simp [hzero] at hroom
        split
        · next hfits =>
          have hall : bytes.extract 0 room = bytes := by
            rw [ByteArray.ext_iff, ByteArray.data_extract, Array.extract_eq_self_iff]
            exact .inr ⟨rfl, hfits⟩
          obtain ⟨o', hgains⟩ :=
            h.fill hm (bytes.extract 0 room) hlt (by omega : n < o.work i) hreturns fun c => by
            rw [hall, hout]
          exact .goesOn hgains
        · next hmore =>
          have hsize : (bytes.extract room bytes.size).size = bytes.size - room := by simp
          have hwrite :
              (Process.write Channel.out.descriptor (bytes.extract room bytes.size) next).Returns
                _ _ _ :=
            hreturns.write fun _ => rfl
          obtain ⟨o', hgains⟩ := h.fill hm (bytes.extract 0 room) hlt (by omega) hwrite fun c => by
            rw [hout, ← List.append_assoc]
            split
            · rw [← unpack_split]
            · rfl
          exact .goesOn hgains

/-- A request of a program is answered without anything being done. -/
theorem Flows.answer {n : Nat} {process : Process} (hn : n < o.work i)
    (hnext : process.Returns n (C.supply o k i) (o.coming i)) :
      C.Strides shown o k i t (.proceed k t process) := by
  obtain ⟨o', hgains⟩ := h.proceed_silent hm hn rfl rfl hnext (fun _ _ => rfl) rfl rfl rfl
  exact .goesOn hgains

/-- The turn of a program that reads. -/
theorem Flows.step_read {n limit : Nat} {line : Bool} {next : Except Errno ByteArray → Process}
    (hprocess : t.process = .read 0 limit line next) (hlimit : 0 < limit) (hn : n < o.work i)
    (hnext : ∀ piece rest, C.supply o k i = piece ++ rest → piece.length ≤ limit →
      (piece = [] → rest = []) → (next (.ok (pack piece))).Returns n rest (o.coming i)) :
    C.Strides shown o k i t (k.step t) := by
  unfold Kernel.step
  rw [hprocess]
  dsimp only
  rw [hm.handle_input]
  dsimp only
  cases i with
  | zero => exact h.answer hm hn (hnext [] [] rfl (Nat.zero_le _) fun _ => rfl)
  | succ j =>
    obtain ⟨b, k', o', hread, hgains⟩ | ⟨hread, hblocked⟩ := h.read_pipe hm hlimit line rfl
      (fun b => next (.ok b)) fun piece rest hpiece hend hsize =>
        ⟨n, hn, hnext piece rest hpiece hsize hend⟩
    · simp only [input, hread]
      exact .goesOn hgains
    · simp only [input, hread, hm.pending, List.isEmpty_nil, if_true]
      exact .waits hblocked

/-- The turn of a program that reads to the end. -/
theorem Flows.step_drain {n : Nat} {taken : ByteArray} {next : ByteArray → Process}
    (hprocess : t.process = .drain 0 taken next) (hn : n + (C.supply o k i).length < o.work i)
    (hnext : (next (taken ++ pack (C.supply o k i))).Returns n [] (o.coming i)) :
    C.Strides shown o k i t (k.step t) := by
  unfold Kernel.step
  rw [hprocess]
  dsimp only
  rw [hm.handle_input]
  dsimp only
  cases i with
  | zero =>
    have hnone : taken ++ pack (C.supply o k 0) = taken := ByteArray.append_empty
    rw [hnone] at hnext
    exact h.answer hm (by omega) hnext
  | succ j =>
    -- At the end the program goes on with everything, else it waits for more.
    obtain ⟨b, k', o', hread, hgains⟩ | ⟨hread, hblocked⟩ :=
      h.read_pipe hm (by decide : 0 < Kernel.pipeSize) false rfl
      (fun b => if b.size = 0 then next taken else .drain 0 (taken ++ b) next)
        fun piece rest hpiece hend _ => by
        by_cases hnil : piece = []
        · have hnone : taken ++ pack (C.supply o k (j + 1)) = taken := by
            rw [hpiece, hnil, hend hnil]
            exact ByteArray.append_empty
          rw [hnone] at hnext
          have hsize : (pack piece).size = 0 := by rw [hnil]; rfl
          exact ⟨n, by omega, by simpa only [hsize, if_true, hend hnil] using hnext⟩
        · have hsize : (pack piece).size ≠ 0 :=
            fun hzero => hnil (by simpa [pack, ByteArray.size] using hzero)
          have hlength : (C.supply o k (j + 1)).length = piece.length + rest.length := by
            simp [hpiece]
          have hpos := List.length_pos_iff.mpr hnil
          rw [hpiece, pack_append, ← ByteArray.append_assoc] at hnext
          exact ⟨n + rest.length + 1, by omega, by simpa only [hsize, if_false] using hnext.drain⟩
    · simp only [input, hread]
      split <;> next hsize =>
        simp only [hsize, if_true, if_false] at hgains
        exact .goesOn hgains
    · simp only [input, hread]
      exact .waits hblocked

/-- The turn of a program that writes. -/
theorem Flows.step_write {c : Channel} {n : Nat} {bytes : ByteArray}
    {next : Except Errno Unit → Process} {rest : Channel → Bytes}
    (hprocess : t.process = .write c.descriptor bytes next) (hn : n + bytes.size < o.work i)
    (hnext : (next (.ok ())).Returns n (C.supply o k i) rest)
    (hout : ∀ c', o.coming i c' = (if c' = c then unpack bytes else []) ++ rest c') :
    C.Strides shown o k i t (k.step t) := by
  have hw := h.works (by simp) hm
  unfold Kernel.step
  rw [hprocess]
  dsimp only
  by_cases hpipe : c = .out ∧ i + 1 < C.length
  · obtain ⟨rfl, hlt⟩ := hpipe
    have houtput : C.output i = .writer (C.base + i) := if_pos hlt
    rw [hm.handle_out, houtput]
    exact h.write_pipe hm hlt hn hnext hout
  · obtain ⟨x, hx, htakes⟩ : ∃ x, t.handle? c.descriptor = some x ∧ k.Takes x := by
      cases c with
      | out =>
        have houtput : C.output i = C.port.handle := if_neg fun hlt => hpipe ⟨rfl, hlt⟩
        exact ⟨_, hm.handle_out, houtput ▸ h.port⟩
      | err => exact ⟨_, hm.handle_err, hw.takes⟩
    obtain ⟨o', k', hwrite, hgains⟩ := h.write_port hm hx htakes (by omega) hnext hout
    rw [hx]
    dsimp only
    rw [hwrite]
    exact .goesOn hgains

/-- The program of a stage does something, or it waits. -/
theorem Flows.step : C.Strides shown o k i t (k.step t) := by
  have hreturns := (h.works (by simp) hm).returns
  have hsupply : C.supply o (k.putBack t) i = C.supply o k i := supply_congr (fun _ => rfl) o i
  rw [hsupply] at hreturns
  generalize hprocess : t.process = process at hreturns
  generalize hwork : o.work i = work at hreturns
  generalize hinput : C.supply o k i = input at hreturns
  generalize hcoming : o.coming i = output at hreturns
  cases hreturns with
  | exit hout =>
    unfold Kernel.step
    rw [hprocess]
    exact .ends (h.finish hm _ (.inl fun c => by rw [hcoming, hout]))
  | look hnext =>
    unfold Kernel.step
    rw [hprocess]
    exact h.answer hm (by omega) (hinput ▸ hcoming ▸ hnext _)
  | inspectInput hnext =>
    subst hinput hcoming
    have hinput : C.input i = .null ∨ ∃ m, C.input i = .reader m := by
      cases i
      · exact .inl rfl
      · exact .inr ⟨_, rfl⟩
    unfold Kernel.step
    rw [hprocess]
    dsimp only
    rw [hm.handle_input]
    obtain hnull | ⟨m, hreader⟩ := hinput
    · rw [hnull]
      exact h.answer hm (by rw [hwork]; exact Nat.lt_succ_self _) hnext
    · rw [hreader]
      exact h.answer hm (by rw [hwork]; exact Nat.lt_succ_self _) hnext
  | @inspectOutput n c _ _ _ hnext =>
    subst hinput hcoming
    obtain ⟨x, hx⟩ : ∃ x, t.handle? c.descriptor = some x := by
      cases c
      · exact ⟨_, hm.handle_out⟩
      · exact ⟨_, hm.handle_err⟩
    unfold Kernel.step
    rw [hprocess]
    dsimp only
    rw [hx]
    exact h.answer hm (by omega) (hnext _)
  | read hlimit hnext =>
    subst hinput hcoming
    exact h.step_read hm hprocess hlimit (by omega) hnext
  | drain hnext =>
    subst hinput hcoming
    exact h.step_drain hm hprocess (by omega) hnext
  | write hnext hout =>
    subst hinput hcoming
    exact h.step_write hm hprocess (by omega) hnext hout

end Step

end Chain

end CommandShell
