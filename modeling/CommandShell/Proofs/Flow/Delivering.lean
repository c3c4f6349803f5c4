import CommandShell.Proofs.Flow.Waiting
import CommandShell.Proofs.Redirecting

/-!
# What has come of a chain

When all programs of a pipeline have been started, its builtins are called from left to right, and
then the shell waits. What has come to the end of the chain is on the terminal or in the file when
the shell has tidied up, whether a program has written it or a builtin has.

## Main statements

- `Chain.Delivers`: what the terminal shows, or the file holds, of what has come to the end of a
  chain.
- `Pipeline.Run.Joins.delivers`: it is there when the shell has waited.
- `Pipeline.Run.Drives.delivers`: what the last program writes is delivered.
- `Pipeline.Run.Calls.unique`: each builtin of a pipeline is called once.
- `Pipeline.Run.Drives.conducts`, `Pipeline.Run.Staffed.conducts`: what comes of a run all of whose
  programs have been started.
-/

/-! ### Waiting and tidying up -/

namespace CommandShell

open Pipeline (Outlet Outlets)

namespace Kernel

@[simp] theorem spilled_release (k : Kernel) (apart : List Handle) (h : Handle) :
    (k.release apart h).spilled = k.spilled := by
  unfold release
  extract_lets isHeld
  split
  · split <;> rfl
  · split <;> rfl
  · split <;> rfl
  · rfl

@[simp] theorem spilled_letGo (k : Kernel) (h : Handle) : (k.letGo h).spilled = k.spilled :=
  spilled_release _ [] h

end Kernel

namespace Chain

variable {C : Chain} {before bytes : Bytes} {s : Session} {o : Outlets} {k : Kernel}

/-- What the terminal shows of bytes that come to the end of a chain: all of them if they come out
there, and the characters that they complete if the shell reads them. -/
def apparent (C : Chain) (s : Session) (bytes : Bytes) : Bytes :=
  match C.port with
  | .tap (.stream _) => Utf8.encode (Utf8.feed .none bytes).1
  | _ => if C.Live s then bytes else []

theorem apparent_congr {s' : Session} (h : s'.direct = s.direct) (bytes : Bytes) :
    C.apparent s' bytes = C.apparent s bytes := by
  simp only [apparent, live_congr h]

theorem apparent_of_stream {n : Nat} (h : C.port = .tap (.stream n)) (s : Session) (bytes : Bytes) :
    C.apparent s bytes = Utf8.encode (Utf8.feed .none bytes).1 := by
  unfold apparent
  rw [h]

theorem apparent_of_other (h : ∀ n, C.port ≠ .tap (.stream n)) (s : Session) (bytes : Bytes) :
    C.apparent s bytes = if C.Live s then bytes else [] := by
  unfold apparent
  split
  · next n hport => exact absurd hport (h n)
  · rfl

/-- Bytes have come to the end of a chain, and the terminal shows them behind what was there before,
or they are what the file holds. -/
structure Delivers (C : Chain) (before bytes : Bytes) (s : Session) : Prop where
  screen : C.Live s ∨ s.direct = false → s.screen.bytesOn .out = before ++ C.apparent s bytes
  absorbed : C.Live s → s.world.spilledOn (.screen .out) = []
  file : ∀ n place executable, C.port = .file n place executable →
    s.world.files.get? place = some (.file (pack bytes) executable)

namespace Delivers

/-- Nothing has come out and no file has changed. -/
theorem absorb (h : C.Delivers before bytes s) (hspilled : k.spilled = s.world.spilled)
    (hfiles : k.files = s.world.files) :
      C.Delivers before bytes (s.onKernel fun _ => k).absorb := by
  obtain ⟨spilled, hkernel, hdirect, hmemory, hlive, -⟩ := (s.onKernel fun _ => k).absorb_eq
  have hsame : (s.onKernel fun _ => k).absorb.direct = s.direct := hdirect
  have hout : (s.onKernel fun _ => k).world.spilledOn (.screen .out) =
      s.world.spilledOn (.screen .out) := by
    unfold Kernel.spilledOn
    exact congrArg (fun l : List Spill =>
      (l.reverse.filter fun spill => spill.tap = .screen .out).flatMap _) hspilled
  refine ⟨fun hor => ?_, fun hl => ?_, fun n place executable hport => ?_⟩
  · rw [apparent_congr hsame]
    rw [live_congr hsame, hsame] at hor
    have hbefore := h.screen hor
    cases hd : s.direct with
    | false =>
      rw [hmemory hd]
      exact hbefore
    | true =>
      obtain ⟨hscreen, -⟩ := hlive hd
      have hl := hor.resolve_right (by simp [hd])
      rw [hscreen, hout, h.absorbed hl, List.append_nil]
      exact hbefore
  · rw [live_congr hsame] at hl
    exact (hlive hl.2).2
  · rw [hkernel]
    change k.files.get? place = _
    rw [hfiles]
    exact h.file n place executable hport

/-- The sink of a file in which nothing waits is closed. -/
theorem close (h : C.Delivers before bytes s)
    (hidle : ∀ c sink, o.heldSink (.file c) = some sink → sink.Idle) (c : Channel) :
      C.Delivers before bytes (Outlets.close (.file c) o s).2 ∧
      (∀ c' sink, (Outlets.close (.file c) o s).1.heldSink (.file c') = some sink → sink.Idle) ∧
      (Outlets.close (.file c) o s).2.direct = s.direct := by
  unfold Outlets.close Outlets.act
  dsimp only
  split
  · exact ⟨h, hidle, rfl⟩
  · next sink hs =>
    obtain ⟨hclosed, hworld⟩ := (hidle c sink hs).close s.world.toKernel
    have hsame : (sink.close s.world.toKernel).2.spilled = s.world.spilled ∧
        (sink.close s.world.toKernel).2.files = s.world.files := by
      obtain hw | hw := hworld <;> simp [hw]
    refine ⟨h.absorb hsame.1 hsame.2, fun c' sink' hs' => ?_, (s.absorb_onKernel _).2.1⟩
    obtain ⟨-, rfl⟩ | hold := Outlets.heldSink_setHeldSink hs'
    · exact hclosed
    · exact hidle c' sink' hold

end Delivers

end Chain

/-- Flushing a sink of the terminal shows nothing more. -/
theorem Pipeline.Outlets.flush_screen (o : Outlets) (s : Session) (c : Channel) :
    (Outlets.flush (.screen c) o s).2 = s := by
  have hsink : ((o.screenSink c).flush s.screen).2 = s.screen := by
    unfold Sink.flush
    split <;> rfl
  unfold Outlets.flush Outlets.act
  dsimp only
  rw [hsink]

namespace Pipeline.Run

variable {C : Chain} {before read : Bytes} {o : Outlook} {r r' : Run}

/-- What has come to the end of a chain is delivered when the shell has waited. -/
theorem Joins.delivers (h : Joins C before read o r r') :
    C.Delivers before (read ++ o.arrived) r'.session := by
  obtain ⟨bytes, hlanded, harrived⟩ := h.shows.flows.landed
  refine ⟨fun hor => ?_, fun hl => ?_, fun n place executable hport => ?_⟩
  · rw [h.shows.screen hor, List.append_assoc]
    refine congrArg _ ?_
    by_cases hstream : ∃ n, C.port = .tap (.stream n)
    · rw [h.streamed hstream, List.append_nil]
      obtain ⟨n, hport⟩ := hstream
      rw [C.apparent_of_stream hport, C.visible_of_not_live (C.not_live_of_stream hport _),
        List.append_nil]
    · have hother (n : Nat) (hport : C.port = .tap (.stream n)) : False := hstream ⟨n, hport⟩
      rw [C.apparent_of_other hother, h.other hother]
      rfl
  · rw [C.visible_of_live hl] at harrived
    obtain rfl : bytes = [] := by simpa using harrived
    rw [hl.1] at hlanded
    exact hlanded
  · have hlive : ¬ C.Live r'.session := by simp [Chain.Live, hport]
    rw [C.visible_of_not_live hlive, List.nil_append] at harrived
    rw [h.other (by simp [hport]), List.nil_append, harrived]
    rw [hport] at hlanded
    exact hlanded.1

/-- The shell tidies up. -/
theorem tidy_delivers {bytes : Bytes} (h : C.Delivers before bytes r.session)
    (hopen : r.openEnds = [])
    (hidle : ∀ c sink, r.wiring.outlets.heldSink (.file c) = some sink → sink.Idle) :
    C.Delivers before bytes r.tidy.session ∧ r.tidy.session.direct = r.session.direct := by
  have hclosed : r.closeAll = r := by
    unfold closeAll
    rw [hopen]
    rfl
  obtain ⟨hout, hidle₁, hdirect₁⟩ := h.close hidle .out
  obtain ⟨herr, -, hdirect₂⟩ := hout.close hidle₁ .err
  have hflush (r : Run) (c : Channel) : (r.flush (.screen c)).session = r.session :=
    Outlets.flush_screen ..
  unfold tidy
  rw [hclosed, hflush, hflush]
  exact ⟨herr, hdirect₂.trans hdirect₁⟩

/-- What the last program of a chain is still going to write is delivered. -/
theorem Drives.delivers (h : Drives C before o C.length r) (hlength : 0 < C.length)
    (hopen : r.openEnds = []) :
    ∃ account : Account, (∀ i, i + 1 = C.length → ∀ c, o.coming i c = account.on c) ∧
      C.Delivers before (o.arrived ++ account.taken C.merges) r.join.tidy.session ∧
      r.join.tidy.session.direct = r.session.direct := by
  obtain ⟨account, read, o', hcoming, hbytes, hjoins⟩ := h.joins hlength
  have hdelivers := hjoins.delivers
  rw [← hbytes] at hdelivers
  obtain ⟨htidied, hdirect⟩ := tidy_delivers hdelivers (hjoins.openEnds.trans hopen) hjoins.idle
  exact ⟨account, hcoming, htidied, hdirect.trans hjoins.direct⟩

end Pipeline.Run

end CommandShell

/-! ### Calling the builtins -/

namespace CommandShell

open Builtin (Emission)

namespace Pipeline

section Calls

variable {capture : Builtin.Capture} {indexed rest : List (Stage × Nat)} {r r' r'' : Run}
  {stage stage' : Stage} {i : Nat} {b b' : Builtin}

namespace Run.Calls

theorem append (h : Run.Calls capture indexed r stage i b r') (rest : List (Stage × Nat)) :
    Run.Calls capture (indexed ++ rest) r stage i b r' := by
  induction h with
  | now ht => exact .now ht
  | program ht _ ih => exact .program ht ih
  | builtin ht hran _ ih => exact .builtin ht hran ih

/-- What is called later is called when the builtins before have been called. -/
theorem later (hran : Run.runBuiltins capture indexed r = (none, r'))
    (h : Run.Calls capture rest r' stage i b r'') :
      Run.Calls capture (indexed ++ rest) r stage i b r'' := by
  induction indexed generalizing r with
  | nil =>
    obtain rfl := (Prod.mk.inj hran).2
    exact h
  | cons x more ih =>
    obtain ⟨first, j⟩ := x
    obtain ⟨r₁, hfirst, hmore⟩ := Run.runBuiltins_cons_eq_none.mp hran
    cases ht : first.target with
    | program path =>
      rw [ht] at hfirst
      obtain rfl := (Prod.mk.inj hfirst).2
      exact .program ht (ih hmore)
    | builtin b' =>
      rw [ht] at hfirst
      exact .builtin ht hfirst (ih hmore)

/-- Each stage is called once. -/
theorem unique (h : Run.Calls capture indexed r stage i b r')
    (h' : Run.Calls capture indexed r stage' i b' r'') (hindexed : (indexed.map Prod.snd).Nodup) :
      stage' = stage ∧ b' = b ∧ r'' = r' := by
  have hlater {rest : List (Stage × Nat)} {r r' : Run} {stage : Stage} {b : Builtin} {j : Nat}
      (h : Run.Calls capture rest r stage j b r') : j ∈ rest.map Prod.snd :=
        List.mem_map_of_mem (f := Prod.snd) h.mem.1
  induction h with
  | now ht =>
    have hnew := (List.nodup_cons.mp hindexed).1
    cases h' with
    | now ht' => exact ⟨rfl, Stage.Target.builtin.inj (ht'.symm.trans ht), rfl⟩
    | program _ h' => exact absurd (hlater h') hnew
    | builtin _ _ h' => exact absurd (hlater h') hnew
  | program ht h ih =>
    obtain ⟨hnew, hrest⟩ := List.nodup_cons.mp hindexed
    cases h' with
    | now => exact absurd (hlater h) hnew
    | program _ h' => exact ih h' hrest
    | builtin ht' => exact absurd (ht.symm.trans ht') (by simp)
  | builtin ht hran h ih =>
    obtain ⟨hnew, hrest⟩ := List.nodup_cons.mp hindexed
    cases h' with
    | now => exact absurd (hlater h) hnew
    | program ht' => exact absurd (ht.symm.trans ht') (by simp)
    | builtin ht' hran' h' =>
      obtain rfl := Stage.Target.builtin.inj (ht.symm.trans ht')
      obtain rfl := (Prod.mk.inj (hran.symm.trans hran')).2
      exact ih h' hrest

end Run.Calls

end Calls

variable {C : Chain} {said : Bytes} {r₀ r : Run} {replies : Nat → List Emission} {output : Nat →
  Channel → Bytes}
  {work : Nat → Nat} {o : Outlook} {earlier : List Stage} {last : Stage} {capture : Builtin.Capture}
    {before : Bytes}

open Run (Drives Minds)

/-- A run that drives a chain is conducted to its end. -/
theorem Run.Drives.conducts (h : Drives C before o 0 r) (hstages : r.stages = earlier ++ [last])
    (hearlier : earlier ≠ [])
    (hends : r.Holding (fun _ => True) (Run.callEnds (earlier ++ [last]) 0))
    (hcalls : ∀ stage i b r', Run.Calls capture (earlier ++ [last]).zipIdx r stage i b r' →
      Minds C capture replies stage i b r')
    (hcoming : ∀ i, i + 1 < C.length → Run.isBuiltinAt r.stages i →
      o.coming i .out = (Account.texts (replies i)).on .out)
    (hbuiltin : last.isBuiltin = true →
      C.port = .tap (.screen .out) ∧ o.arrived = [] ∧ ∀ c, o.coming earlier.length c = [])
    (hout : r.wiring.out ≠ .next) (herr : r.wiring.err ≠ .next) :
    ∃ (r' : Run) (account : Account), Run.runBuiltins capture (earlier ++ [last]).zipIdx r =
      (none, r') ∧ (∀ c, o.coming earlier.length c = account.on c) ∧
      C.Delivers (before ++ if last.isBuiltin then (replies earlier.length).flatMap fun e =>
          if r.outletFor earlier.length e.1 = .screen .out then Utf8.encode e.2 else [] else [])
        (o.arrived ++ account.taken C.merges) r'.join.tidy.session ∧
      r'.join.tidy.session.direct = r.session.direct ∧
      Answers capture replies r.session (earlier ++ [last]).zipIdx := by
  have hlength : earlier.length + 1 = C.length := by rw [← h.couples.length, hstages]; simp
  have hpos : 0 < earlier.length := List.length_pos_iff.mpr hearlier
  rw [zipIdx_concat] at hcalls ⊢
  obtain ⟨o₁, r₁, hran, h₁, hfollows, hdirect, hevolves, hanswers⟩ := h.runBuiltins
    (by omega : 0 + earlier.length < C.length)
    (fun j stage hj => by rw [hstages, Nat.zero_add,
      List.getElem?_append_left (List.getElem?_eq_some_iff.mp hj).1, hj])
    (fun stage i b r' hcall => hcalls stage i b r' (hcall.append _))
    (fun i _ hi hb => hcoming i hi hb)
  rw [Nat.zero_add] at h₁
  obtain ⟨more, harrived, hlands⟩ := hevolves.lands
  obtain ⟨r₂, hranLast, h₂, hfollows₂, hdirect₂, -, hanswers₂⟩ := h₁.runLast hlength (by omega)
    (show r₁.stages[earlier.length]? =
      some last by rw [hfollows.stages, hstages, List.getElem?_concat_length])
    (fun stage i b r' hcall => hcalls stage i b r' (hcall.later hran))
    (fun hb => by
      obtain ⟨hport, hnone, hsilent⟩ := hbuiltin hb
      have hmore : more = [] := Account.eq_nil fun c => by
        have hsplit := (hsilent c).symm.trans (hlands _ hlength c)
        exact (List.append_eq_nil_iff.mp hsplit.symm).1
      exact ⟨hport, by rw [harrived, hnone, hmore, Account.taken_nil, List.nil_append]⟩)
    (hfollows.out ▸ hout) (hfollows.err ▸ herr)
  have hrun : Run.runBuiltins capture (earlier.zipIdx ++ [(last, earlier.length)]) r = (none, r₂) :=
    Run.runBuiltins_append_eq_none.mpr ⟨r₁, hran, hranLast⟩
  have hopen : r₂.openEnds = [] := by
    have hranAll : Run.runBuiltins capture (earlier ++ [last]).zipIdx r = (none, r₂) := by
      rw [zipIdx_concat, hrun]
    obtain ⟨P, hholding, hnone⟩ := Run.holding_calls hstages hends hranAll
    exact List.eq_nil_iff_forall_not_mem.mpr fun e he =>
      hnone rfl e ((hholding.mem_openEnds e).mp he)
  obtain ⟨account, hcoming₂, hdelivers, hdirect₃⟩ := h₂.delivers (by omega) hopen
  refine ⟨r₂, more ++ account, hrun, fun c => ?_, ?_, hdirect₃.trans (hdirect₂.trans hdirect),
    hanswers _ hanswers₂⟩
  · rw [hlands _ hlength, hcoming₂ _ hlength, Account.on_append]
  · simp only [hfollows.outletFor] at hdelivers
    rwa [harrived, List.append_assoc, ← Account.taken_append] at hdelivers

/-- What comes of a run all of whose programs have been started: of the last one everything that it
writes, if there is a program, and of a builtin its texts. -/
theorem Run.Staffed.conducts {content : Bytes} (h : Run.Staffed C said r₀ r)
    (hholds : Run.Holds C 0 r) (hy : Yields r₀.session replies r₀.stages output work)
    (hstages : r₀.stages = earlier ++ [last]) (hearlier : earlier ≠ [])
    (hends : r.Holding (fun _ => True) (Run.callEnds (earlier ++ [last]) 0)) (hlanded :
      r₀.kernel.Landed C.port content) (hcontent : C.port = .tap (.screen .out) → content = [])
    (haside : C.port ≠ .tap (.screen .err))
    (hpatience : ∑ i ∈ Finset.range C.length, work i < r₀.kernel.patience)
    (hinterrupts : r₀.session.interrupts = [])
    (hcalls : ∀ stage i b r', Run.Calls capture (earlier ++ [last]).zipIdx r stage i b r' →
      Minds C capture replies stage i b r')
    (hbuiltin : last.isBuiltin = true → C.port = .tap (.screen .out))
    (hout : r₀.wiring.out ≠ .next) (herr : r₀.wiring.err ≠ .next) :
    ∃ (r' : Run) (account : Account), Run.runBuiltins capture (earlier ++ [last]).zipIdx r =
      (none, r') ∧ (C.Manned r.kernel earlier.length → ∀ c,
        account.on c = output earlier.length c) ∧
      (¬ C.Manned r.kernel earlier.length → account = []) ∧
      C.Delivers (r₀.session.screen.bytesOn .out ++ said ++ if last.isBuiltin then
          (replies earlier.length).flatMap fun e =>
            if r.outletFor earlier.length e.1 = .screen .out then Utf8.encode e.2 else [] else [])
        (content ++ account.taken C.merges) r'.join.tidy.session ∧
      r'.join.tidy.session.direct = r₀.session.direct ∧
      Answers capture replies r₀.session (earlier ++ [last]).zipIdx := by
  classical
  have hlength : earlier.length + 1 = C.length := by
    rw [← h.couples.length, h.stages, hstages]; simp
  let o : Outlook := ⟨fun i => if i + 1 = C.length ∧ ¬ C.Manned r.kernel i then fun _ =>
    [] else output i, work, content⟩
  have hforth : Forthcoming C output work r.kernel o :=
    ⟨fun i hi => if_neg fun hlast => Nat.ne_of_lt hi hlast.1, fun i _ hm =>
      if_neg fun hlast => hlast.2 hm, fun i hi hm c => congrFun (if_pos ⟨hi, hm⟩) c, rfl⟩
  have hdrives :=
    h.drives hholds hy hforth hlanded (fun hl => hcontent hl.1) haside hpatience hinterrupts
  obtain ⟨r', account, hran, hcoming, hdelivers, hdirect, hanswers⟩ :=
    hdrives.conducts (h.stages.trans hstages) hearlier
    hends hcalls (fun i hi hb => by
      obtain ⟨stage, hstage, hb⟩ := hb
      rw [h.stages] at hstage
      rw [hforth.earlier i hi, (hy.produces i stage hstage).of_isBuiltin hb])
    (fun hb => ⟨hbuiltin hb, hcontent (hbuiltin hb), fun c =>
      hforth.silent _ hlength (fun hm => h.programs _ hm
      ⟨last, by rw [h.stages, hstages, List.getElem?_concat_length], hb⟩) c⟩)
    (h.wiring ▸ hout) (h.wiring ▸ herr)
  refine ⟨r', account, hran, fun hm c => ?_, fun hm => Account.eq_nil fun c => ?_, hdelivers,
    hdirect.trans h.beside.direct, hanswers.of_beside h.beside⟩
  · rw [← hcoming c, hforth.last _ hlength hm]
  · rw [← hcoming c, hforth.silent _ hlength hm]

end Pipeline

end CommandShell
