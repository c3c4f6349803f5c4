import CommandShell.Proofs.Flow.Settling
import Mathlib.Data.List.Sigma

/-!
# A pipeline is the composition of its stages

All programs of a pipeline are started before any builtin is called, they run at the same time, and
the shell carries what they write. What arrives where the output of the last stage goes is
nonetheless what the stages come to when each one is run after the other, as long as every program
is a function of its input.

## Main statements

- `Pipeline.exists_replies`: what the builtins of a pipeline reply is settled.
- `Pipeline.Delivered`: what a last stage has written is where its output goes.
- `Pipeline.Settles`: a pipeline comes to its end, and what its last stage writes has been
  delivered.
- `Pipeline.Composable.exists_started`: all its stages are started, or passed over.
- `Pipeline.run_composes`: it does so as its stages compose.
- `Shell.runLine_shows`: what a terminal in memory shows of a line.
-/

namespace CommandShell

open FileSystem (Leads IsPlain)
open Builtin (Emission)

namespace Pipeline

variable {capture : Builtin.Capture}

section Builtins

variable {d : Spool} {c : Channel} {indexed : List (Stage × Nat)} {stage : Stage} {i : Nat}
  {b : Builtin} {r r' : Run}

/-- The builtins before the last stage leave the file of a spool alone by what they do by
themselves. -/
theorem Run.Aside.spared_of_calls (h : r.Aside d c)
    (hi : ∀ x ∈ indexed, x.1.isBuiltin = true → r.isLast x.2 = false)
    (hs : ∀ x ∈ indexed, x.1.Edits d.origin d.place capture r.session.environment)
    (hcall : Run.Calls capture indexed r stage i b r') :
    (b.run capture r'.session stage.args).session.world.files.get? d.place =
      r'.session.world.files.get? d.place := by
  have hbuiltin {stage : Stage} {b : Builtin} (ht : stage.target = .builtin b) :
      stage.isBuiltin = true := by
    simp [Stage.isBuiltin, ht]
  induction hcall with
  | @now stage i b _ r ht =>
    obtain ⟨content, hspools⟩ := h.spools
    refine ((hs _ List.mem_cons_self b ht).2 _ (r.beside_entered i stage).environment ?_).2
    rw [r.session_entered, Session.world_note]
    exact hspools.leads
  | program _ _ ih =>
    exact ih h (fun x hx => hi x (List.mem_cons_of_mem _ hx)) fun x hx =>
      hs x (List.mem_cons_of_mem _ hx)
  | builtin ht hran _ ih =>
    have hpass :=
      h.passes_runBuiltin (hi _ List.mem_cons_self (hbuiltin ht)) (hs _ List.mem_cons_self) ht
      (congrArg Prod.fst hran)
    rw [hran] at hpass
    refine ih hpass.aside (fun x hx hb => ?_) fun x hx => ?_
    · rw [hpass.isLast]
      exact hi x (List.mem_cons_of_mem _ hx) hb
    · rw [hpass.keeps.steady.environment]
      exact hs x (List.mem_cons_of_mem _ hx)

/-- Each builtin of a pipeline is called once. -/
theorem Calls.unique {s : Session} {stages : List Stage} {stage' : Stage} {b' : Builtin}
    (h : Calls capture s stages stage i b r) (h' : Calls capture s stages stage' i b' r') :
    stage' = stage ∧ b' = b ∧ r' = r := by
  obtain ⟨last, opened, wiring, started, hlast, hopen, hspawn, hcall⟩ := h.ran
  obtain ⟨last', opened', wiring', started', hlast', hopen', hspawn', hcall'⟩ := h'.ran
  obtain rfl := Option.some.inj (hlast.symm.trans hlast')
  obtain ⟨hwiring, rfl⟩ := Prod.mk.inj (hopen.symm.trans hopen')
  obtain rfl := Except.ok.inj hwiring
  obtain rfl := (Prod.mk.inj (hspawn.symm.trans hspawn')).2
  exact hcall.unique hcall' (List.nodup_zipIdx_map_snd stages)

/-- What the builtins of a pipeline reply is settled. -/
theorem exists_replies (capture : Builtin.Capture) (s : Session) (stages : List Stage) :
    ∃ replies : Nat → List Emission, ∀ stage i b r, Calls capture s stages stage i b r →
      (b.run capture r.session stage.args).writes = replies i := by
  have hone (i : Nat) : ∃ reply : List Emission, ∀ stage b r, Calls capture s stages stage i b r →
      (b.run capture r.session stage.args).writes = reply := by
    by_cases hcalled : ∃ stage b r, Calls capture s stages stage i b r
    · obtain ⟨stage, b, r, h⟩ := hcalled
      refine ⟨(b.run capture r.session stage.args).writes, fun stage' b' r' h' => ?_⟩
      obtain ⟨rfl, rfl, rfl⟩ := h.unique h'
      rfl
    · exact ⟨[], fun stage b r h => absurd ⟨stage, b, r, h⟩ hcalled⟩
  choose replies hreplies using hone
  exact ⟨replies, fun stage i b r h => hreplies i stage b r h⟩

end Builtins

/-- What a last stage has written has been delivered. A terminal shows all of it, or if it is one in
memory the characters that it completes; a file that the output is redirected to holds it, behind
what was there if it is added. -/
structure Delivered (s : Session) (redirections : Redirections) (bytes : Bytes)
    (s' : Session) : Prop where
  screen : redirections.out = none → s'.screen.bytesOn .out =
    s.screen.bytesOn .out ++ if s.direct then bytes else Utf8.encode (Utf8.feed .none bytes).1
  file : ∀ target place, redirections.out = some target → target.LeadsTo s place →
    IsPlain (s.world.files.get? place) → ∃ executable, s'.world.files.get? place = some (.file
      (pack ((if target.mode = .append then FileSystem.held (s.world.files.get? place) else []) ++
        bytes)) executable)

namespace Delivered

variable {s s' : Session} {redirections : Redirections} {target : FileTarget} {place : Place}
  {bytes : Bytes}

theorem of_screen (hout : redirections.out = none) (h : s'.screen.bytesOn .out =
      s.screen.bytesOn .out ++ if s.direct then bytes else Utf8.encode (Utf8.feed .none bytes).1) :
    Delivered s redirections bytes s' :=
  ⟨fun _ => h, by simp [hout]⟩

/-- Nothing is required of a file that is lost. -/
theorem of_lost (hout : redirections.out = some target)
    (h : ∀ place, target.LeadsTo s place → ¬ IsPlain (s.world.files.get? place)) :
    Delivered s redirections bytes s' := by
  refine ⟨by simp [hout], fun target' place htarget hplace hplain => ?_⟩
  obtain rfl := Option.some.inj (hout.symm.trans htarget)
  exact absurd hplain (h place hplace)

theorem of_file (hout : redirections.out = some target) (hplace : target.LeadsTo s place)
    (h : ∃ executable, s'.world.files.get? place = some (.file
      (pack ((if target.mode = .append then FileSystem.held (s.world.files.get? place) else []) ++
        bytes)) executable)) :
    Delivered s redirections bytes s' := by
  refine ⟨by simp [hout], fun target' place' htarget hplace' _ => ?_⟩
  obtain rfl := Option.some.inj (hout.symm.trans htarget)
  obtain rfl := hplace.unique hplace'
  exact h

end Delivered

/-- A pipeline comes to its end. Its builtins have been called one after the other, and what the
last stage writes on its channels, in some order, has been delivered. -/
structure Settles (capture : Builtin.Capture) (s opened : Session) (earlier : List Stage)
    (last : Stage) (replies : Nat → List Emission) (final : Channel → Bytes) : Prop where
  ended : ∃ status, (run capture s (earlier ++ [last])).ending = .ok status
  answers : Answers capture replies opened (earlier ++ [last]).zipIdx
  delivered : ∃ account : Account, (∀ c, account.on c = final c) ∧
    Delivered s last.redirections (account.taken last.redirections.merges)
      (run capture s (earlier ++ [last])).session

namespace Composable

open Run (Starting Staffed)

variable {s opened : Session} {wiring : Wiring} {earlier : List Stage} {last : Stage}
  {replies : Nat → List Emission}
  {n : Nat} {final : Channel → Bytes} {port : Port} {content : Bytes} {process : Process} {r : Run}

theorem run_eq (h : Composable capture s opened wiring earlier last) :
    run capture s (earlier ++ [last]) = runWired capture opened (earlier ++ [last]) wiring := by
  simp only [run, List.getLast?_concat, h.opens]

/-- The last stage writes what it does when it has read some input. -/
theorem exists_produces
    (hcomposes : Composes opened replies [] (earlier ++ [last]).zipIdx n final) :
    ∃ input m, Produces opened last (replies earlier.length) input m final := by
  obtain ⟨output, work, hy, rfl, -⟩ := hcomposes.yields
  have hlast := hy.produces earlier.length last List.getElem?_concat_length
  rw [List.length_append, List.length_singleton, Nat.add_sub_cancel]
  exact ⟨_, _, hlast⟩

/-- The stages before the last one have been started, and the output of the last one goes
somewhere. -/
structure Begun (s opened : Session) (wiring : Wiring) (earlier : List Stage) (last : Stage)
    (port : Port) (content : Bytes) (r : Run) : Prop where
  spawned : Run.spawnAll earlier.zipIdx (atStart opened wiring earlier last) = (none, r)
  starting : ∀ p, Starting (chain opened earlier last p) (atStart opened wiring earlier last)
    earlier.length r
  destination : Destination s opened last.redirections wiring r.kernel.nextNumber port content
  ends : r.EndsAt port
  apart : last.redirections.merges = false → r.ErrsApart port

theorem exists_begun (h : Composable capture s opened wiring earlier last) :
    ∃ port content r, Begun s opened wiring earlier last port content r := by
  obtain ⟨r, hspawn, hstarting⟩ := h.starting
  have hwiring : r.wiring = wiring := (hstarting .nowhere).wiring
  have hdirect : r.session.direct = s.direct :=
    (hstarting .nowhere).beside.direct.trans
      ((beside_atStart opened wiring earlier last).direct.trans h.direct_eq)
  obtain ⟨port, content, hdest⟩ := exists_destination h.atRest h.opens h.errors r.kernel.nextNumber
  exact ⟨port, content, r, hspawn, hstarting, hdest, hdest.endsAt h.opens hwiring hdirect,
    fun hm => hdest.errsApart h.opens hm hwiring⟩

/-- The last stage is started after those before it. -/
theorem Begun.spawnAll (hr : Begun s opened wiring earlier last port content r) {r₁ : Run}
    (hlast : r.spawn earlier.length last = (none, r₁)) :
    Run.spawnAll (earlier ++ [last]).zipIdx (atStart opened wiring earlier last) = (none, r₁) := by
  rw [zipIdx_concat]
  exact Run.spawnAll_append_eq_none.mpr ⟨r, hr.spawned,
    Run.spawnAll_cons_eq_none.mpr ⟨r₁, hlast, rfl⟩⟩

section Staffing

/-- The program of the last stage is started and writes where the output goes. -/
theorem staffed_launched (h : Composable capture s opened wiring earlier last)
    (hr : Begun s opened wiring earlier last port content r)
    (hl : Launches (atStart opened wiring earlier last).session last process) :
    ∃ r₁, r.spawn earlier.length last = (none, r₁) ∧
      Staffed (chain opened earlier last port) [] (atStart opened wiring earlier last) r₁ := by
  obtain ⟨path, ht, hstart⟩ := hl
  exact (hr.starting port).spawn_program (couples_atStart _ _ h.several ..) (by simp [chain])
    List.getElem?_concat_length
    ⟨path, ht, hstart⟩ (h.textFault_atStart (by simp) path ht) rfl hr.ends hr.apart
      h.spilled_atStart

/-- The last stage has no program that can be started, and the shell may say so. -/
theorem staffed_skipped (h : Composable capture s opened wiring earlier last)
    (hr : Begun s opened wiring earlier last port content r)
    (hnone : ∀ process, ¬ Launches (atStart opened wiring earlier last).session last process) :
    ∃ r₁ said, r.spawn earlier.length last = (none, r₁) ∧ (last.isBuiltin = true → said = []) ∧
      (last.isBuiltin = false → ∀ w input m output,
        Produces (atStart opened wiring earlier last).session last w input m output →
          output = (Account.texts said).on) ∧
      Staffed (chain opened earlier last (.tap (.screen .out))) (if wiring.err = .screen .out then
        (Account.texts said).taken true else []) (atStart opened wiring earlier last) r₁ := by
  have herr := (route_openRedirections h.opens).2
  exact (hr.starting _).spawn_other (couples_atStart _ _ h.several ..) (by simp [chain])
    List.getElem?_concat_length hnone
    (h.textFault_atStart (by simp)) rfl hr.ends hr.apart
      (herr ▸ last.redirections.route_ne_next .err) h.spilled_atStart

/-- All stages of a pipeline are started, or passed over. -/
theorem exists_started (h : Composable capture s opened wiring earlier last) :
    ∃ r, Run.spawnAll (earlier ++ [last]).zipIdx (atStart opened wiring earlier last) =
      (none, r) := by
  obtain ⟨port, content, r, hr⟩ := h.exists_begun
  by_cases hl : ∃ process, Launches (atStart opened wiring earlier last).session last process
  · obtain ⟨process, hl⟩ := hl
    obtain ⟨r₁, hlast, -⟩ := h.staffed_launched hr hl
    exact ⟨r₁, hr.spawnAll hlast⟩
  · obtain ⟨r₁, -, hlast, -⟩ := h.staffed_skipped hr fun process hl' => hl ⟨process, hl'⟩
    exact ⟨r₁, hr.spawnAll hlast⟩

/-- The programs of a functional machine open no files. -/
theorem starts (h : Composable capture s opened wiring earlier last) (origin : FileSystem)
    (place : Place) (stage : Stage) : stage.Starts origin place opened.machine := by
  intro path ht s' process hm hp
  rw [h.machine_eq] at hm
  exact (isFunction_start (hm.symm ▸ h.functional) hp).plain.avoids origin place

/-- The builtins leave the file alone that the program of the last stage writes to. -/
theorem leaves (h : Composable capture s opened wiring earlier last)
    (hr : Begun s opened wiring earlier last port content r) {path : Path}
    (ht : last.target = .program (some path)) {r₁ r' : Run}
    (hlast : r.spawn earlier.length last = (none, r₁)) {stage : Stage} {i : Nat} {b : Builtin}
    (hcall : Run.Calls capture (earlier ++ [last]).zipIdx r₁ stage i b r') :
    Run.Leaves (chain opened earlier last port) r'.session
      (b.run capture r'.session stage.args).session := by
  intro m place executable hfile
  obtain ⟨hspawn, -, hdest, -, -⟩ := hr
  cases hdest with
  | screen => split at hfile <;> cases hfile
  | lost => cases hfile
  | @file target d hout hplace horigin halone hspooled =>
    obtain ⟨-, rfl, -⟩ := Port.file.inj hfile
    have hwiring := route_openRedirections h.opens
    obtain ⟨hkeeps, hfiling, hdrained⟩ :=
      filing_earlier halone hspooled (fun stage _ => h.starts d.origin d.place stage) hspawn
    have hmerges (hm : last.redirections.merges = true) : r.wiring.err = r.wiring.out := by
      rw [hkeeps.out, hkeeps.err]
      exact hwiring.2.trans ((Redirections.route_of_merges hm).trans hwiring.1.symm)
    have hprogram : r.spawnProgram earlier.length last path = (none, r₁) := by
      simpa [Run.spawn, ht] using hlast
    have hisLast : r.isLast earlier.length = true := (hkeeps.isLast _).trans isLast_atStart
    obtain ⟨hkeeps₁, hspawned⟩ := hfiling.spawnProgram halone hdrained hisLast ht
      (hkeeps.steady.machine ▸ h.starts d.origin d.place last) hmerges (congrArg Prod.fst hprogram)
    rw [hprogram] at hkeeps₁ hspawned
    have hkept := hkeeps.trans hkeeps₁
    have hlasts (x : Stage × Nat) (hx : x ∈ (earlier ++ [last]).zipIdx)
        (hb : x.1.isBuiltin = true) :
        r₁.isLast x.2 = false := by
      rw [zipIdx_concat, List.mem_append, List.mem_singleton] at hx
      obtain hx | rfl := hx
      · exact (hkept.isLast _).trans (isLast_init hx)
      · simp [Stage.isBuiltin, ht] at hb
    have hedits (x : Stage × Nat) (hx : x ∈ (earlier ++ [last]).zipIdx) :
        x.1.Edits d.origin d.place capture r₁.session.environment := by
      rw [hkept.steady.environment, (beside_atStart opened wiring earlier last).environment,
        h.environment_eq, horigin]
      exact h.edits target d.place hout hplace x.1 (List.fst_mem_of_mem_zipIdx hx)
    -- The program may have been given the file or not.
    obtain ⟨_, -, hrefused⟩ | ⟨_, _, -, hshared, -⟩ := hspawned
    · exact hrefused.aside.spared_of_calls hlasts hedits hcall
    · exact hshared.aside.spared_of_calls hlasts hedits hcall

end Staffing

/-- The terminal shows what has come to the end of a chain that ends there. -/
theorem screen_of_delivers {bytes : Bytes} {s' : Session} {m : Nat}
    (h : (chain opened earlier last port).Delivers (s.screen.bytesOn .out) bytes s')
    (hdirect : s'.direct = s.direct)
    (hport : port = if s.direct = true then .tap (.screen .out) else .tap (.stream m)) :
    s'.screen.bytesOn .out =
      s.screen.bytesOn .out ++
        if s.direct then bytes else Utf8.encode (Utf8.feed .none bytes).1 := by
  cases hd : s.direct with
  | true =>
    obtain rfl : port = .tap (.screen .out) := by simpa [hd] using hport
    have hlive : (chain opened earlier last (.tap (.screen .out))).Live s' :=
      ⟨rfl, hdirect.trans hd⟩
    rw [h.screen (.inl hlive), Chain.apparent_of_other (by simp [chain]), if_pos hlive, if_pos rfl]
  | false =>
    obtain rfl : port = .tap (.stream m) := by simpa [hd] using hport
    rw [h.screen (.inr (hdirect.trans hd)), Chain.apparent_of_stream rfl, if_neg (by simp)]

section Settling

variable (h : Composable capture s opened wiring earlier last)
  (hreplies : ∀ stage i b r, Calls capture s (earlier ++ [last]) stage i b r →
    (b.run capture r.session stage.args).writes = replies i)
  (hcomposes : Composes opened replies [] (earlier ++ [last]).zipIdx n final)
include h hreplies hcomposes

/-- Where the program of the last stage writes there arrives what the stages come to. -/
theorem launches (hpatience : n < s.world.patience)
    (hr : Begun s opened wiring earlier last port content r)
    (hl : Launches (atStart opened wiring earlier last).session last process) :
    ∃ account : Account, (∃ status, (run capture s (earlier ++ [last])).ending = .ok status) ∧
      Answers capture replies opened (earlier ++ [last]).zipIdx ∧ (∀ c, account.on c = final c) ∧
      (chain opened earlier last port).Delivers (s.screen.bytesOn .out)
        (content ++ account.taken last.redirections.merges)
        (run capture s (earlier ++ [last])).session ∧
      (run capture s (earlier ++ [last])).session.direct = s.direct := by
  obtain ⟨r₁, hlast, hstaffed⟩ := h.staffed_launched hr hl
  obtain ⟨path, ht, hstart⟩ := hl
  have hbuiltin : last.isBuiltin = false := by simp [Stage.isBuiltin, ht]
  obtain ⟨account, hended, hanswers, hmanned, -, hdelivers, hdirect⟩ :=
    h.settles (hr.spawnAll hlast) hstaffed hreplies
    hcomposes hpatience (hr.destination.landed h.spilled_opened _) hr.destination.ne_errors
    (fun _ _ _ _ hcall => h.leaves hr ht hlast hcall) (by simp [hbuiltin])
  rw [h.run_eq]
  refine ⟨account, hended, hanswers, hmanned ?_, ?_, hdirect⟩
  · exact hstaffed.crew.manned _ last process (by simp [chain]) List.getElem?_concat_length
      ⟨path, ht, hstart⟩
  · simpa [hbuiltin] using hdelivers

/-- A pipeline whose last program can be started settles as its stages compose. -/
theorem settles_launched (hpatience : n < s.world.patience)
    (hl : Launches (atStart opened wiring earlier last).session last process) :
    Settles capture s opened earlier last replies final := by
  obtain ⟨port, content, r, hr⟩ := h.exists_begun
  obtain ⟨account, hended, hanswers, hon, hdelivers, hdirect⟩ :=
    h.launches hreplies hcomposes hpatience hr hl
  refine ⟨hended, hanswers, account, hon, ?_⟩
  cases hr.destination with
  | screen hout => exact .of_screen hout (screen_of_delivers hdelivers hdirect rfl)
  | lost hout hlost => exact .of_lost hout hlost
  | @file target d hout hplace =>
    exact .of_file hout hplace ⟨d.executable, hdelivers.file _ _ _ rfl⟩

/-- The last stage has no program that can be started: the terminal shows its texts, or those of the
shell. -/
theorem skips (hpatience : n < s.world.patience)
    (hnone : ∀ process, ¬ Launches (atStart opened wiring earlier last).session last process)
    (hr : Begun s opened wiring earlier last port content r) :
    ∃ writes, (∃ status, (run capture s (earlier ++ [last])).ending = .ok status) ∧
      Answers capture replies opened (earlier ++ [last]).zipIdx ∧
      (∀ c, (Account.texts writes).on c = final c) ∧
      (last.isBuiltin = true → writes = replies earlier.length) ∧ (last.redirections.out = none →
        (run capture s (earlier ++ [last])).session.screen.bytesOn .out =
        s.screen.bytesOn .out ++ (Account.texts writes).taken last.redirections.merges) := by
  obtain ⟨r₁, said, hlast, hquiet, hshows, hstaffed⟩ := h.staffed_skipped hr hnone
  have hunmanned : ¬ (chain opened earlier last (.tap (.screen .out))).Manned r₁.kernel
      earlier.length := by
    rintro ⟨t, ht, err, hmans⟩
    obtain ⟨i, stage, err', -, hstage, hlaunches, hmans', -⟩ := hstaffed.crew.tasks t ht
    obtain ⟨rfl, -⟩ := hmans.unique hmans'
    obtain rfl : last = stage := Option.some.inj (List.getElem?_concat_length.symm.trans hstage)
    exact hnone _ hlaunches
  have hlanded : (atStart opened wiring earlier last).kernel.Landed (.tap (.screen .out)) [] := by
    rw [Kernel.Landed, Kernel.spilledOn, h.spilled_atStart]
    rfl
  obtain ⟨account, hended, hanswers, -, hnothing, hdelivers, hdirect⟩ :=
    h.settles (hr.spawnAll hlast) hstaffed hreplies
    hcomposes hpatience hlanded (by simp) (fun _ _ _ _ _ _ _ _ hport => by cases hport) fun _ => rfl
  obtain rfl := hnothing hunmanned
  rw [h.run_eq]
  -- Nothing arrives but what the shell has said and what the builtin has written.
  have hscreen := hdelivers.screen (by
    cases hd : s.direct with
    | true => exact .inl ⟨rfl, hdirect.trans hd⟩
    | false => exact .inr (hdirect.trans hd))
  rw [Account.taken_nil, List.append_nil, Chain.apparent_of_other (by simp [chain]), ite_self,
    List.append_nil] at hscreen
  obtain ⟨input, m, hproduces⟩ := exists_produces hcomposes
  have hshown (hout : last.redirections.out = none) :
      last.redirections.route .out = .screen .out := by
    simp [Redirections.route, hout]
  rw [(route_openRedirections h.opens).2] at hscreen
  cases hb : last.isBuiltin with
  | true =>
    refine ⟨replies earlier.length, hended, hanswers,
      fun c => by rw [hproduces.of_isBuiltin hb], fun _ => rfl, fun hout => ?_⟩
    simp only [hb, if_true, hquiet hb, Account.texts_nil, Account.taken_nil, ite_self,
      List.append_nil] at hscreen
    rw [hscreen, Account.taken_texts _ last.redirections.route_eq_out, hshown hout]
  | false =>
    have hfinal := hshows hb _ _ _ _ (hproduces.congr (start_atStart opened wiring earlier last))
    refine ⟨said, hended, hanswers, fun c => by rw [hfinal], by simp, fun hout => ?_⟩
    simp only [hb, Bool.false_eq_true, if_false, List.append_nil, ← hshown hout] at hscreen
    rw [hscreen]
    refine congrArg _ ?_
    cases hm : last.redirections.merges with
    | true => rw [if_pos ((last.redirections.route_eq_out .err).mpr (.inr hm))]
    | false =>
      rw [if_neg fun heq => by
        simpa [hm] using (last.redirections.route_eq_out .err).mp heq, Account.taken_false,
        ← hfinal]
      refine (hproduces.silent hb fun path process ht hp => hnone process ⟨path, ht, ?_⟩).symm
      rw [start_atStart]
      exact hp

/-- The last stage has no program that can be started: the file that it is redirected to holds its
texts, or those of the shell. -/
theorem filed_of_skipped
    (hnone : ∀ process, ¬ Launches (atStart opened wiring earlier last).session last process)
    (hr : Begun s opened wiring earlier last port content r) {target : FileTarget}
    (hout : last.redirections.out = some target) {d : Spool} (hplace : target.LeadsTo s d.place)
    (horigin : d.origin = s.world.files) (halone : d.alone)
    (hspooled : Spooled d .out content s opened wiring.outlets) {writes : List Emission}
    (hended : ∃ status, (run capture s (earlier ++ [last])).ending = .ok status)
    (hon : ∀ c, (Account.texts writes).on c = final c)
    (hbuiltin : last.isBuiltin = true → writes = replies earlier.length) :
    (run capture s (earlier ++ [last])).session.world.files.get? d.place = some
      (.file (pack (content ++ (Account.texts writes).taken last.redirections.merges))
        d.executable) := by
  obtain ⟨status, hended⟩ := hended
  rw [h.run_eq] at hended ⊢
  obtain ⟨bytes, hwrites, hfile⟩ := files_runWired (route_openRedirections h.opens) halone hspooled
    (fun stage _ => h.starts d.origin d.place stage)
    (fun stage hstage =>
      horigin ▸ h.environment_eq ▸ h.edits target d.place hout hplace stage hstage) hended
  rw [hfile]
  have hfiled (texts : List Emission) : last.redirections.filed .out texts =
      (Account.texts texts).taken last.redirections.merges :=
        Redirections.filed_out (by simp [hout]) texts
  obtain ⟨input, m, hproduces⟩ := exists_produces hcomposes
  -- Two lists of texts that are for the errors only are the same for the file if their bytes are.
  have herrors (text : String) (hfinal : final = (Account.texts [(.err, text)]).on) :
      (Account.texts [(.err, text)]).taken last.redirections.merges =
        (Account.texts writes).taken last.redirections.merges := by
    have hsame (c : Channel) :
        (Account.texts [(.err, text)]).on c = (Account.texts writes).on c := by rw [hon, hfinal]
    exact Account.taken_congr hsame (by simp [Account.texts_cons, Account.on_of])
  have hstart {r₁ : Run}
      (hr₁ : Run.spawnAll earlier.zipIdx (atStart opened wiring earlier last) = (none, r₁))
      (path : Path) : start (r₁.descriptorsFor earlier.length last.redirections.merges).1.session
        (last.command :: last.args) path = start opened (last.command :: last.args) path := by
    obtain rfl := (Prod.mk.inj (hr.spawned.symm.trans hr₁)).2
    rw [← start_atStart opened wiring earlier last]
    exact (hr.starting port).start_descriptorsFor (couples_atStart _ _ h.several ..)
      (by simp [chain]) hr.ends hr.apart _ path
  cases hwrites with
  | @builtin b _ r' r'' hb hspawn' hlast hrun =>
    obtain rfl := (Prod.mk.inj (hr.spawned.symm.trans hspawn')).2
    have hcall : Run.Calls capture (earlier ++ [last]).zipIdx r' last earlier.length b
        (r''.entered earlier.length last) := by
      rw [zipIdx_concat]
      exact (Run.Calls.now hb).later hrun
    have hreply := hreplies _ _ _ _ (h.calls_of_calls (hr.spawnAll hlast) hcall)
    rw [Run.session_entered] at hreply
    rw [hbuiltin (by simp [Stage.isBuiltin, hb]), ← hreply, ← hfiled]
    rfl
  | missing ht =>
    rw [hfiled, ← herrors (missingText last) (hproduces.unique (.missing ht))]
    rfl
  | @refused path _ e ht hspawn' he =>
    rw [hstart hspawn'] at he
    rw [hfiled, ← herrors (refusedText last e) (hproduces.unique (.refused ht he))]
    rfl
  | @program path _ _ _ _ process _ ht hspawn' hroute hprocess =>
    refine absurd ⟨path, ht, ?_⟩ (hnone process)
    rw [start_atStart, ← hstart hspawn', hroute]
    exact hprocess

/-- A pipeline whose last stage has no program that can be started settles as its stages compose. -/
theorem settles_skipped (hpatience : n < s.world.patience)
    (hnone : ∀ process, ¬ Launches (atStart opened wiring earlier last).session last process) :
    Settles capture s opened earlier last replies final := by
  obtain ⟨port, content, r, hr⟩ := h.exists_begun
  obtain ⟨writes, hended, hanswers, hon, hbuiltin, hscreen⟩ :=
    h.skips hreplies hcomposes hpatience hnone hr
  refine ⟨hended, hanswers, Account.texts writes, hon, ?_⟩
  have hdest := hr.destination
  cases hdest with
  | screen hout =>
    exact .of_screen hout (by rw [hscreen hout, Account.encode_feed_taken_texts, ite_self])
  | lost hout hlost => exact .of_lost hout hlost
  | @file target d hout hplace horigin halone hspooled =>
    exact .of_file hout hplace ⟨d.executable,
      h.filed_of_skipped hreplies hcomposes hnone hr hout hplace horigin halone
      hspooled hended hon hbuiltin⟩

end Settling

end Composable

/-- A pipeline denotes the composition of its stages. Whenever the system lets the programs go on
for as long as the stages take one after the other, the pipeline comes to its end, and what its last
stage writes when it has read all that the stage before it has written, and so on, is delivered
where its output goes. -/
theorem run_composes {s opened : Session} {wiring : Wiring} {earlier : List Stage} {last : Stage}
    (h : Composable capture s opened wiring earlier last) :
    ∃ replies : Nat → List Emission,
      (∀ stage i b r, Calls capture s (earlier ++ [last]) stage i b r →
        (b.run capture r.session stage.args).writes = replies i) ∧
      (∃ n final, Composes opened replies [] (earlier ++ [last]).zipIdx n final) ∧
      ∀ n final, Composes opened replies [] (earlier ++ [last]).zipIdx n final →
        n < s.world.patience → Settles capture s opened earlier last replies final := by
  obtain ⟨replies, hreplies⟩ := exists_replies capture s (earlier ++ [last])
  refine ⟨replies, hreplies, ?_, fun n final hcomposes hpatience => ?_⟩
  · obtain ⟨first, rest, rfl⟩ := List.exists_cons_of_ne_nil h.several
    exact exists_composes (h.machine_eq ▸ h.functional) replies [] (first, 0)
      ((rest ++ [last]).zipIdx 1)
  · by_cases hl : ∃ process, Launches (atStart opened wiring earlier last).session last process
    · obtain ⟨process, hl⟩ := hl
      exact h.settles_launched hreplies hcomposes hpatience hl
    · exact h.settles_skipped hreplies hcomposes hpatience fun process hl' => hl ⟨process, hl'⟩

/-- A terminal in memory shows the characters that the output of the last stage completes; that is
the text that the output decodes to just if it does not break off in a character. -/
theorem Settles.shows {capture : Builtin.Capture} {s opened : Session} {earlier : List Stage}
    {last : Stage} {replies : Nat → List Builtin.Emission} {final : Channel → Bytes}
    (h : Settles capture s opened earlier last replies final) (hmemory : s.direct = false)
    (hout : last.redirections.out = none) (hmerges : last.redirections.merges = false) :
    let shown := (run capture s (earlier ++ [last])).session.screen.bytesOn .out
    shown = s.screen.bytesOn .out ++ Utf8.encode (Utf8.feed .none (final .out)).1 ∧
      (shown = s.screen.bytesOn .out ++ Utf8.encode (Utf8.decode (final .out)) ↔
        (Utf8.feed .none (final .out)).2 = .none) := by
  obtain ⟨account, hon, hdelivered⟩ := h.delivered
  have hscreen := hdelivered.screen hout
  rw [hmerges, Account.taken_false, hon, hmemory, if_neg Bool.false_ne_true] at hscreen
  intro shown
  refine ⟨hscreen, ?_⟩
  rw [show shown = _ from hscreen, List.append_cancel_left_eq, Utf8.encode_inj,
    Utf8.feed_eq_decode_iff]

/-- A program that copies its input and then writes a letter and the start of a character. -/
def copying : Process := .ofFunction fun input =>
  (input ++ pack [0x61, 0xE2, 0x82], ByteArray.empty, 0)

/-- A session with a terminal in memory, in which there is one program. -/
def copier : Session :=
  { cwd := Path.ofParts [], world := {},
    machine := ⟨fun _ _ text => if text = "/p" then .ok fun _ => copying else .error .notFound⟩ }

/-- A builtin that writes a letter and ends the line. -/
def lettering : Stage :=
  { command := "echo", args := ["x"], target := .builtin .echo, text := "echo x" }

/-- A command that runs the program. -/
def copy : Stage :=
  { command := "p", args := [], target := .program (some (Path.ofText "/p")), text := "p" }

theorem composable_copy :
    Composable (fun _ s => (.ok "", s)) copier copier { outlets := Outlets.ofSession copier }
      [lettering] copy := by
  have hstages (stage : Stage) (hmem : stage ∈ [lettering] ++ [copy]) :
      stage = lettering ∨ stage = copy := by
    simpa using hmem
  exact {
    atRest := ⟨rfl, rfl, rfl, rfl, rfl, rfl, by decide⟩
    functional := fun files place text program hload launch => by
      simp only [copier] at hload
      split at hload
      · cases hload
        exact Process.isFunction_ofFunction _
      · cases hload
    several := by simp
    opens := rfl
    texts := fun stage hmem path ht => by
      rcases hstages stage hmem with rfl | rfl
      · cases ht
      · decide +kernel
    calls := fun stage i b r hcall => by
      obtain ⟨hmem, ht⟩ := hcall.mem
      rcases hstages stage hmem with rfl | rfl <;> cases ht
      exact ⟨by simp, 0, .inl rfl⟩
    errors := fun _ _ ht => by cases ht
    edits := fun _ _ ht => by cases ht }

theorem start_copy : start copier ["p"] (Path.ofText "/p") = .ok copying := by
  have hplace : startPlace copier = .ok [] := by
    have hstat : copier.world.files.stat copier.world.directory copier.cwd = .ok ([], .dir) := by
      unfold FileSystem.stat FileSystem.locate
      rw [if_neg (by decide +kernel)]
      unfold FileSystem.walk
      rfl
    unfold startPlace
    rw [hstat]
    rfl
  have hshort : ((["p"] ++ copier.environment.bindings.map variableText).any fun t =>
      maxArgument < (Utf8.encode t).length) = false := by decide +kernel
  have hfile : candidates copier.environment (Path.ofText "/p") = ["/p"] := by decide +kernel
  unfold start
  simp only [hplace, hshort, hfile, Bool.false_eq_true, if_false]
  rfl

/-- The terminal in memory shows what the builtin wrote and the letter; the start of a character
stays behind. -/
theorem run_composes_copy :
    (run (fun _ s => (.ok "", s)) copier [lettering, copy]).session.screen.bytesOn .out =
    [0x78, 0x0A, 0x61] := by
  obtain ⟨replies, hreplies, -, hsettles⟩ := run_composes composable_copy
  have hinput : (Account.texts (replies 0)).on .out = [0x78, 0x0A] := by
    obtain ⟨r, hspawn⟩ := composable_copy.exists_started
    have hreply : replies 0 = [(.out, "x\n")] :=
      (hreplies lettering 0 .echo _ (composable_copy.calls_of_calls hspawn (.now rfl))).symm.trans
        rfl
    rw [hreply]
    decide +kernel
  have hcopied : copying.Returns _ ((Account.texts (replies 0)).on .out) _ :=
    Process.returns_ofFunction _ _
  have hcomposes : Composes copier replies [] [(lettering, 0), (copy, 1)] _ _ :=
    .next (.builtin rfl) (.last (.program rfl start_copy hcopied))
  rw [hinput] at hcomposes
  obtain ⟨-, -, account, hon, hdelivered⟩ := hsettles _ _ hcomposes (by decide +kernel)
  have hout : account.taken copy.redirections.merges = [0x78, 0x0A, 0x61, 0xE2, 0x82] := by
    rw [show copy.redirections.merges = false from rfl, Account.taken_false, hon]
    decide +kernel
  have hscreen := hdelivered.screen rfl
  rw [hout] at hscreen
  refine hscreen.trans ?_
  decide +kernel

end Pipeline

namespace Shell

open Pipeline

/-- So it is for a line that is read as such a pipeline. -/
theorem runLine_shows {s opened : Session} {line : String} {wiring : Wiring} {earlier : List Stage}
    {last : Stage} (hparse : Stage.parse s line = .ok (earlier ++ [last]))
    (h : Composable (capture maxDepth) s opened wiring earlier last) (hmemory : s.direct = false)
    (hout : last.redirections.out = none) (hmerges : last.redirections.merges = false) :
    ∃ replies : Nat → List Builtin.Emission,
      (∃ n final, Composes opened replies [] (earlier ++ [last]).zipIdx n final) ∧
      ∀ n final, Composes opened replies [] (earlier ++ [last]).zipIdx n final →
        n < s.world.patience →
        let shown := (runLine s line).2.screen.bytesOn .out
        shown = s.screen.bytesOn .out ++ Utf8.encode (Utf8.feed .none (final .out)).1 ∧
          (shown = s.screen.bytesOn .out ++ Utf8.encode (Utf8.decode (final .out)) ↔
            (Utf8.feed .none (final .out)).2 = .none) := by
  have hrun : (runLine s line).2 = (run (capture maxDepth) s (earlier ++ [last])).session := by
    obtain ⟨first, rest, hstages⟩ :=
      List.exists_cons_of_ne_nil (List.append_ne_nil_of_left_ne_nil h.several [last])
    rw [runLine, hparse, hstages]
    rfl
  obtain ⟨replies, -, hcomposes, hsettles⟩ := run_composes h
  refine ⟨replies, hcomposes, fun n final hfinal hpatience => ?_⟩
  rw [hrun]
  exact (hsettles n final hfinal hpatience).shows hmemory hout hmerges

end Shell

end CommandShell
