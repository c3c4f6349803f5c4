import CommandShell.Proofs.Flow.Delivering
import CommandShell.Proofs.Text.Utf8

/-!
# From the start of a pipeline to its end

The files of the last stage are opened, all programs are started, all builtins are called, and the
shell waits. What comes of that is told by what the stages come to when they are taken one after the
other.

## Main statements

- `Redirections.route_eq_out`: what goes where the output goes.
- `Pipeline.Destination`: where the output goes, and `Pipeline.exists_destination`: that it goes
  somewhere.
- `Pipeline.Destination.endsAt`, `Pipeline.Destination.errsApart`: the last stage writes there, and
  its errors go elsewhere.
- `Pipeline.Composable`: a pipeline that comes to its end.
- `Pipeline.Composable.starting`: the stages before the last one are started.
- `Pipeline.Composable.settles`: what comes of a pipeline all of whose stages have been started.
-/

/-! ### Where a chain ends -/

namespace CommandShell

open FileSystem (IsPlain)
open Builtin (Emission)

/-- What has been encoded is decoded at once. -/
theorem Utf8.feed_encode (text : String) : Utf8.feed .none (Utf8.encode text) = (text, .none) := by
  unfold Utf8.feed Utf8.encode
  rw [Utf8.feedOnto_encodeChars]
  simp

namespace Account

variable {merges : Bool} {writes : List Emission}

theorem taken_false (a : Account) : a.taken false = a.on .out := by simp [taken, on]

/-- If nothing is for the output, the errors are taken or nothing is. -/
theorem taken_of_on_out {a : Account} (h : a.on .out = []) :
    a.taken merges = if merges then a.on .err else [] := by
  cases merges with
  | false => rw [taken_false, h, if_neg Bool.false_ne_true]
  | true =>
    induction a with
    | nil => rfl
    | cons x rest ih =>
      obtain ⟨c, byte⟩ := x
      cases c with
      | out => simp [on] at h
      | err =>
        have hrest : on rest .out = [] := by simpa [on] using h
        simpa [on, taken] using ih hrest

theorem taken_congr {a b : Account} (h : ∀ c, a.on c = b.on c) (hout : a.on .out = []) :
    a.taken merges = b.taken merges := by
  rw [taken_of_on_out hout, taken_of_on_out ((h .out).symm.trans hout), h]

/-- The bytes of texts of which some go where the output goes. -/
theorem taken_texts (writes : List Emission) {p : Channel → Prop} [DecidablePred p]
    (hp : ∀ c, p c ↔ c = .out ∨ merges = true) :
    (texts writes).taken merges = writes.flatMap fun e =>
      if p e.1 then Utf8.encode e.2 else [] := by
  induction writes with
  | nil => rfl
  | cons e rest ih =>
    rw [texts_cons, taken_append, ih, taken_of, List.flatMap_cons]
    simp [hp]

/-- They are the bytes of one text, so all of them are shown. -/
theorem encode_feed_taken_texts (writes : List Emission) :
    Utf8.encode (Utf8.feed .none ((texts writes).taken merges)).1 =
    (texts writes).taken merges := by
  obtain ⟨text, heq⟩ : ∃ text, (texts writes).taken merges = Utf8.encode text := by
    induction writes with
    | nil => exact ⟨"", rfl⟩
    | cons e rest ih =>
      obtain ⟨text, heq⟩ := ih
      rw [texts_cons, taken_append, heq, taken_of]
      split
      · exact ⟨e.2 ++ text, (Utf8.encode_append _ _).symm⟩
      · exact ⟨text, List.nil_append _⟩
  rw [heq, Utf8.feed_encode]

end Account

namespace Redirections

/-- Errors go where the output goes if they follow it. -/
theorem route_eq_out (r : Redirections) (c : Channel) : r.route c = r.route .out ↔ c = .out ∨
    r.merges = true := by
  cases c with
  | out => simp
  | err =>
    rcases herr : r.err with _ | target | _
    · cases hout : r.out <;> simp [route, merges, herr, hout]
    · cases hout : r.out <;> simp [route, merges, herr, hout]
    · simp [route, merges, herr]

/-- The last stage has no stage after it. -/
theorem route_ne_next (r : Redirections) (c : Channel) : r.route c ≠ .next := by
  unfold route
  repeat' split
  all_goals simp

/-- What is written to the file of the output. -/
theorem filed_out {r : Redirections} (h : r.out.isSome = true) (writes : List Emission) :
    r.filed .out writes = (Account.texts writes).taken r.merges := by
  have hroute : r.route .out = .file .out := by simp [route, h]
  rw [filed, ← hroute, Account.taken_texts writes r.route_eq_out]
  induction writes with
  | nil => rfl
  | cons e rest ih => by_cases he : r.route e.1 = r.route .out <;> simp [he, ih]

end Redirections

namespace Kernel

variable {k k' : Kernel}

/-- Nobody writes anywhere in a session at rest. -/
theorem spares_of_atRest {s : Session} (h : s.AtRest) (place : Place) :
    s.world.toKernel.Spares s.world.files place := by
  refine ⟨.refl _, rfl, fun m f hmem => ?_, fun m hmem => ?_, fun t ht => ?_⟩
  · rw [h.opened] at hmem
    cases hmem
  · rw [h.held] at hmem
    cases hmem
  · rw [h.tasks] at ht
    cases ht

/-- What is opened under a number is a plain file, or there was nothing. -/
theorem isPlain_of_openText {base : Place} {text : String} {mode : OpenMode} {n : Nat}
    (ho : k.openText base text (World.accessOf mode) = .ok (.file n, k')) :
    ∃ place, k.files.locateText .create base text = .ok (place, k.files.get? place) ∧
      IsPlain (k.files.get? place) := by
  obtain ⟨-, hnull | hdir, -⟩ | ⟨found, node, -, -, -, hfound, -⟩ := openText_accessOf ho
  · cases hnull
  · cases hdir
  · obtain rfl := FileSystem.get?_of_locateText hfound
    refine ⟨found, hfound, ?_⟩
    unfold openText at ho
    simp only [World.create_accessOf, World.write_accessOf, if_true, hfound] at ho
    generalize k.files.get? found = node at ho
    rcases node with _ | _ | _ | _ | _ <;> first | trivial | cases ho

/-- A spool that is held has come to its port. -/
theorem Spools.landed {d : Spool} {content : Bytes} (h : k.Spools d content)
    (hheld : .file d.number ∈ k.held) : k.Landed (.file d.number d.place d.executable) content := by
  obtain ⟨f, hmem⟩ := h.kept hheld
  obtain ⟨f', hf'⟩ : ∃ f', k.opened.lookup d.number = some f' := by
    refine Option.ne_none_iff_exists'.mp fun hnone => ?_
    exact absurd (List.lookup_eq_none_iff.mp hnone _ hmem) (by simp)
  obtain ⟨hplace, -, hend⟩ := h.own f' (mem_of_lookup hf')
  exact ⟨h.file, ⟨f', hf', hplace, hend⟩, fun m g hg hne hw =>
    h.others m g (mem_of_lookup hg) hne (.inl hw)⟩

end Kernel

/-- A target leads to one place. -/
theorem FileTarget.LeadsTo.unique {target : FileTarget} {s : Session} {place place' : Place}
    (h : target.LeadsTo s place) (h' : target.LeadsTo s place') : place = place' :=
      (Prod.mk.inj (Except.ok.inj (Eq.trans (Eq.symm h) h'))).1

namespace Pipeline

variable {s opened : Session} {redirections : Redirections} {wiring : Wiring} {target : FileTarget}

/-- A file of its own for the errors is open, and that for the output stays so. -/
theorem openErrors_sinks {err : Option ErrorTarget} {out : Outlet} {o : Outlets}
    (ho : openErrors s err out o = (.ok wiring, opened)) :
    wiring.outlets.heldSink (.file .out) = o.heldSink (.file .out) ∧
      ∀ target, err = some (.file target) → ∃ h,
        wiring.outlets.heldSink (.file .err) = some (.ofHandle h) := by
  unfold openErrors at ho
  split at ho
  · cases ho
    exact ⟨rfl, by simp⟩
  · cases ho
    exact ⟨rfl, by simp⟩
  · split at ho
    · cases ho
    · next htarget =>
      cases ho
      obtain ⟨h, k, -, rfl, -⟩ := openTarget_eq_ok htarget
      exact ⟨rfl, fun _ _ => ⟨h, rfl⟩⟩

/-- Files that channels are redirected to have sinks. -/
theorem openRedirections_sinks (ho : openRedirections s redirections = (.ok wiring, opened)) :
    (∀ target, redirections.out = some target → ∃ h k,
      wiring.outlets.heldSink (.file .out) = some (.ofHandle h) ∧
      s.world.openText s.world.directory (s.resolvePath target.path).text
        (World.accessOf target.mode) = .ok (h, k)) ∧
    ∀ target, redirections.err = some (.file target) →
      ∃ h, wiring.outlets.heldSink (.file .err) = some (.ofHandle h) := by
  unfold openRedirections at ho
  split at ho
  · next hout =>
      exact ⟨fun target ht => (Option.some_ne_none target (ht.symm.trans hout)).elim,
        (openErrors_sinks ho).2⟩
  · next target hout =>
    split at ho
    · cases ho
    · next htarget =>
      obtain ⟨hsink, herr⟩ := openErrors_sinks ho
      obtain ⟨h, k, hopen, rfl, -⟩ := openTarget_eq_ok htarget
      refine ⟨fun target' ht => ?_, herr⟩
      obtain rfl := Option.some.inj (hout.symm.trans ht)
      exact ⟨h, k, hsink, hopen⟩

/-- Where the output of a last stage goes when its files are open, and what is there already: to the
terminal, or to a stream that the shell reads from under a number; to where it is lost; or to a
file. -/
inductive Destination (s opened : Session) (redirections : Redirections)
    (wiring : Wiring) (m : Nat) : Port → Bytes → Prop where
  | screen (hout : redirections.out = none) : Destination s opened redirections wiring m
      (if s.direct = true then .tap (.screen .out) else .tap (.stream m)) []
  | lost {target : FileTarget} (hout : redirections.out = some target)
    (hlost : ∀ place, target.LeadsTo s place → ¬ IsPlain (s.world.files.get? place))
    (hsink : wiring.outlets.heldSink (.file .out) = some (.ofHandle .null)) :
    Destination s opened redirections wiring m .nowhere []
  | file {target : FileTarget} {d : Spool} (hout : redirections.out = some target)
      (hplace : target.LeadsTo s d.place)
    (horigin : d.origin = s.world.files) (halone : d.alone)
    (hspooled : Spooled d .out
      (if target.mode = .append then FileSystem.held (s.world.files.get? d.place) else [])
      s opened wiring.outlets) :
    Destination s opened redirections wiring m (.file d.number d.place d.executable)
      (if target.mode = .append then FileSystem.held (s.world.files.get? d.place) else [])

/-- The output goes somewhere. -/
theorem exists_destination (hs : s.AtRest)
    (ho : openRedirections s redirections = (.ok wiring, opened))
    (hother : ∀ target place, redirections.out = some target → target.LeadsTo s place →
      ∀ t, redirections.err = some (.file t) → ∃ place', t.LeadsTo s place' ∧
        place' ≠ place) (m : Nat) :
    ∃ p content, Destination s opened redirections wiring m p content := by
  cases hout : redirections.out with
  | none => exact ⟨_, _, .screen hout⟩
  | some target =>
    obtain ⟨h, k, hsink, hopen⟩ := (openRedirections_sinks ho).1 target hout
    by_cases hplain : ∃ place, target.LeadsTo s place ∧ IsPlain (s.world.files.get? place)
    · obtain ⟨place, hplace, hplain⟩ := hplain
      have hother' (c : Channel) (t : FileTarget) (hc : c ≠ .out)
          (ht : redirections.target? c = some t) :
          ∃ place', t.LeadsTo s place' ∧ place' ≠ place := by
        cases c with
        | out => exact absurd rfl hc
        | err =>
          refine hother target place hout hplace t ?_
          rcases herr : redirections.err with _ | t' | _ <;> simp_all [Redirections.target?]
      obtain ⟨d, horigin, rfl, halone, hspooled⟩ := spooled_openRedirections (c := .out) hout
        (Kernel.spares_of_atRest hs place) hplain hplace hother' ho
      exact ⟨_, _, .file hout hplace horigin halone hspooled⟩
    · obtain ⟨h', hh, -, rfl | ⟨n, rfl, -⟩⟩ := (opens_openRedirections ho).files .out _ hsink
      · exact ⟨_, _, .lost hout (fun place hplace hp => hplain ⟨place, hplace, hp⟩)
          (hsink.trans (congrArg some hh))⟩
      · obtain rfl : h = .file n := by simpa [Sink.ofHandle] using hh
        exact absurd (Kernel.isPlain_of_openText hopen) hplain

namespace Destination

variable {m : Nat} {p : Port} {content : Bytes}

/-- It goes nowhere where the terminal shows errors. -/
theorem ne_errors (h : Destination s opened redirections wiring m p content) :
    p ≠ .tap (.screen .err) := by
  cases h with
  | screen => split <;> simp
  | lost | file => simp

/-- What is there already has come there. -/
theorem landed (h : Destination s opened redirections wiring m p content)
    (hs : opened.world.spilled = []) (stages : List Stage) :
    (Run.init opened stages wiring).kernel.Landed p content := by
  cases h with
  | screen =>
    have hspilled : (Run.init opened stages wiring).kernel.spilled = [] :=
      (Run.addPipes_eq _ _).2.spilled.trans hs
    split <;> (rw [Kernel.Landed, Kernel.spilledOn, hspilled]; rfl)
  | lost => trivial
  | file _ _ _ _ hspooled =>
    obtain ⟨hspools, hheld⟩ := spools_addPipes (stages.length - 1) hspooled.spools hspooled.held
    exact hspools.landed hheld

variable {r : Run}

/-- The last stage writes there. -/
theorem endsAt (h : Destination s opened redirections wiring r.kernel.nextNumber p content)
    (ho : openRedirections s redirections = (.ok wiring, opened)) (hw : r.wiring = wiring)
    (hd : r.session.direct = s.direct) : r.EndsAt p := by
  have hroute := (route_openRedirections ho).1
  unfold Run.EndsAt
  rw [hw, hroute, hd]
  cases h with
  | screen hout => exact .inl ⟨by simp [Redirections.route, hout], rfl⟩
  | lost hout _ hsink => exact .inr ⟨by simp [Redirections.route, hout], by simp, hsink⟩
  | file hout _ _ _ hspooled =>
    exact .inr ⟨by simp [Redirections.route, hout], by simp, hspooled.sink⟩

/-- The errors of the last stage go elsewhere if they do not follow the output. -/
theorem errsApart (h : Destination s opened redirections wiring m p content)
    (ho : openRedirections s redirections = (.ok wiring, opened)) (hm : redirections.merges = false)
    (hw : r.wiring = wiring) : r.ErrsApart p := by
  have hroute := (route_openRedirections ho).2
  have hopens := opens_openRedirections ho
  have hp : (∃ t, p = .tap t) ∨
      wiring.outlets.heldSink (.file .out) = some (.ofHandle p.handle) := by
    cases h with
    | screen => exact .inl (by split <;> exact ⟨_, rfl⟩)
    | lost _ _ hsink => exact .inr hsink
    | file _ _ _ _ hspooled => exact .inr hspooled.sink
  unfold Run.ErrsApart
  rw [hw, hroute]
  rcases herr : redirections.err with _ | target | _
  · exact .inl (by simp [Redirections.route, herr])
  · obtain ⟨x, hsink⟩ := (openRedirections_sinks ho).2 target herr
    obtain ⟨x', hx, -, hshape⟩ := hopens.files .err _ hsink
    obtain rfl : x = x' := by simpa [Sink.ofHandle] using hx
    refine .inr ⟨by simp [Redirections.route, herr], x, hsink, fun t => ?_, fun heq => ?_⟩
    · obtain rfl | ⟨n, rfl, -⟩ := hshape <;> simp
    · obtain ⟨t, rfl⟩ | hout := hp
      · obtain rfl | ⟨n, rfl, -⟩ := hshape <;> cases heq
      · have hnull := hopens.apart x (heq ▸ hout) hsink
        rw [hnull] at heq
        cases p <;> first | rfl | cases heq
  · simp [Redirections.merges, herr] at hm

end Destination

end Pipeline

end CommandShell

/-! ### From the start to the end -/

namespace CommandShell.Pipeline

open Builtin (Emission)
open Run (Starting Staffed Minds)

variable {capture : Builtin.Capture} {s opened : Session} {wiring : Wiring} {earlier : List Stage}
  {last : Stage}
  {replies : Nat → List Emission} {n : Nat} {final : Channel → Bytes} {port : Port}
    {said content : Bytes} {r : Run}

/-- A pipeline of several stages that is run in a session at rest, where all programs are functions
of their input: its files can be opened, texts can be given to its programs, its builtins run no
commands of their own and return or leave the shell, and a file that its output goes to is left
alone by its errors and by its builtins. -/
structure Composable (capture : Builtin.Capture) (s opened : Session) (wiring : Wiring)
    (earlier : List Stage) (last : Stage) : Prop where
  atRest : s.AtRest
  functional : s.machine.Functional
  several : earlier ≠ []
  opens : openRedirections s last.redirections = (.ok wiring, opened)
  texts : ∀ stage ∈ earlier ++ [last], ∀ path, stage.target = .program (some path) →
    textFault? (stage.command :: stage.args) s.environment = none
  calls : ∀ stage i b r, Calls capture s (earlier ++ [last]) stage i b r →
    b ≠ .ai ∧ Run.Calm (b.runFor (Run.host i) capture stage.args r).1
  errors : ∀ target place, last.redirections.out = some target → target.LeadsTo s place →
    ∀ t, last.redirections.err = some (.file t) → ∃ place', t.LeadsTo s place' ∧ place' ≠ place
  edits : ∀ target place, last.redirections.out = some target → target.LeadsTo s place →
    ∀ stage ∈ earlier ++ [last], stage.Edits s.world.files place capture s.environment

/-- The programs of a pipeline as a chain that ends in a port. -/
def chain (opened : Session) (earlier : List Stage) (last : Stage) (port : Port) : Chain :=
  ⟨opened.world.nextNumber, (earlier ++ [last]).length, port, last.redirections.merges⟩

theorem couples_atStart (opened : Session) (wiring : Wiring) {earlier : List Stage}
    (he : earlier ≠ []) (last : Stage) (port : Port) :
    Run.Couples (chain opened earlier last port) (atStart opened wiring earlier last) :=
  Run.couples_init _ (by simpa using he) _ _ _

/-- The couplers are made while nothing runs. -/
theorem idles_atStart (opened : Session) (wiring : Wiring) (earlier : List Stage) (last : Stage) :
    opened.world.toKernel.Idles (atStart opened wiring earlier last).kernel :=
      (Run.addPipes_eq _ _).2

theorem beside_atStart (opened : Session) (wiring : Wiring) (earlier : List Stage) (last : Stage) :
    opened.Beside (atStart opened wiring earlier last).session := by
  let system := (Run.addPipes ((earlier ++ [last]).length - 1) opened.world.toKernel).2
  exact .onKernel opened (f := fun _ => system) (idles_atStart opened wiring earlier last).still

/-- Programs start as they would when the files of the last stage have been opened. -/
theorem start_atStart (opened : Session) (wiring : Wiring) (earlier : List Stage) (last : Stage)
    (arguments : List String) (path : Path) :
    start (atStart opened wiring earlier last).session arguments path =
      start opened arguments path :=
  start_congr (beside_atStart opened wiring earlier last).upkeep
    (idles_atStart opened wiring earlier last).files ..

/-- What a stage writes is up to the programs that can be started. -/
theorem Produces.congr {s s' : Session} {stage : Stage} {writes : List Emission}
    {input : Bytes} {m : Nat} {output : Channel → Bytes}
    (h : Produces s stage writes input m output)
    (hs : ∀ arguments path, start s' arguments path = start s arguments path) :
    Produces s' stage writes input m output := by
  cases h with
  | builtin ht => exact .builtin ht
  | missing ht => exact .missing ht
  | refused ht he => exact .refused ht ((hs _ _).trans he)
  | program ht hp hr => exact .program ht ((hs _ _).trans hp) hr

namespace Composable

/-- The session when the files of the last stage have been opened. -/
theorem opened_eq (h : Composable capture s opened wiring earlier last) :
    ∃ k, opened = s.onKernel fun _ => k :=
  (opens_openRedirections h.opens).session

theorem direct_eq (h : Composable capture s opened wiring earlier last) :
    opened.direct = s.direct := by
  obtain ⟨k, rfl⟩ := h.opened_eq
  rfl

theorem screen_eq (h : Composable capture s opened wiring earlier last) :
    opened.screen = s.screen := by
  obtain ⟨k, rfl⟩ := h.opened_eq
  rfl

theorem environment_eq (h : Composable capture s opened wiring earlier last) :
    opened.environment = s.environment := by
  obtain ⟨k, rfl⟩ := h.opened_eq
  rfl

theorem machine_eq (h : Composable capture s opened wiring earlier last) :
    opened.machine = s.machine := by
  obtain ⟨k, rfl⟩ := h.opened_eq
  rfl

theorem spilled_opened (h : Composable capture s opened wiring earlier last) :
    opened.world.spilled = [] :=
  (opens_openRedirections h.opens).spilled.trans h.atRest.spilled

theorem spilled_atStart (h : Composable capture s opened wiring earlier last) :
    (atStart opened wiring earlier last).kernel.spilled = [] :=
  (idles_atStart opened wiring earlier last).spilled.trans h.spilled_opened

/-- Texts can be given to the programs when the couplers have been made. -/
theorem textFault_atStart (h : Composable capture s opened wiring earlier last) {stage : Stage}
    (hstage : stage ∈ earlier ++ [last]) (path : Path) (ht : stage.target = .program (some path)) :
    textFault? (stage.command :: stage.args)
      (atStart opened wiring earlier last).session.environment = none := by
  rw [(beside_atStart opened wiring earlier last).environment, h.environment_eq]
  exact h.texts stage hstage path ht

/-- The stages before the last one are started, wherever the last one writes. -/
theorem starting (h : Composable capture s opened wiring earlier last) :
    ∃ r, Run.spawnAll earlier.zipIdx (atStart opened wiring earlier last) = (none, r) ∧
      ∀ port, Starting (chain opened earlier last port) (atStart opened wiring earlier last)
        earlier.length r := by
  have hstart (port : Port) :
      ∃ r, Run.spawnAll earlier.zipIdx (atStart opened wiring earlier last) = (none, r) ∧
      Starting (chain opened earlier last port) (atStart opened wiring earlier last)
        earlier.length r := by
    have hfirst : Starting (chain opened earlier last port) (atStart opened wiring earlier last) 0
        (atStart opened wiring earlier last) :=
      Run.starting_init h.atRest (opens_openRedirections h.opens) _ _
    obtain ⟨r, hspawn, hr⟩ := hfirst.spawnAll (couples_atStart _ _ h.several ..)
      (by simp [chain] : 0 + earlier.length < (chain opened earlier last port).length)
      (fun j stage hj => by
        rw [Nat.zero_add]
        exact (List.getElem?_append_left (List.getElem?_eq_some_iff.mp hj).1).trans hj)
      fun stage hstage path ht => h.textFault_atStart (List.mem_append_left _ hstage) path ht
    rw [Nat.zero_add] at hr
    exact ⟨r, hspawn, hr⟩
  obtain ⟨r, hspawn, -⟩ := hstart .nowhere
  refine ⟨r, hspawn, fun port => ?_⟩
  obtain ⟨r', hspawn', hr'⟩ := hstart port
  obtain rfl := (Prod.mk.inj (hspawn.symm.trans hspawn')).2
  exact hr'

/-- The builtins of a pipeline are called when all programs have been started. -/
theorem calls_of_calls (h : Composable capture s opened wiring earlier last)
    (hspawn : Run.spawnAll (earlier ++ [last]).zipIdx (atStart opened wiring earlier last) =
      (none, r)) {stage : Stage}
    {i : Nat} {b : Builtin} {r' : Run}
    (hcall : Run.Calls capture (earlier ++ [last]).zipIdx r stage i b r') :
    Calls capture s (earlier ++ [last]) stage i b r' :=
  ⟨last, opened, wiring, r, List.getLast?_concat, h.opens, hspawn, hcall⟩

/-- What comes of a pipeline all of whose stages have been started. -/
theorem settles (h : Composable capture s opened wiring earlier last)
    (hspawn : Run.spawnAll (earlier ++ [last]).zipIdx (atStart opened wiring earlier last) =
      (none, r))
    (hstaffed : Staffed (chain opened earlier last port) said
      (atStart opened wiring earlier last) r)
    (hreplies : ∀ stage i b r, Calls capture s (earlier ++ [last]) stage i b r →
      (b.run capture r.session stage.args).writes = replies i)
    (hcomposes : Composes opened replies [] (earlier ++ [last]).zipIdx n final)
    (hpatience : n < s.world.patience) (hlanded : (atStart opened wiring earlier last).kernel.Landed
      port content) (haside : port ≠ .tap (.screen .err))
    (hleaves : ∀ stage i b r', Run.Calls capture (earlier ++ [last]).zipIdx r stage i b r' →
      Run.Leaves (chain opened earlier last port) r'.session
        (b.run capture r'.session stage.args).session)
    (hbuiltin : last.isBuiltin = true → port = .tap (.screen .out)) :
    ∃ account : Account, (∃ status, (runWired capture opened (earlier ++ [last]) wiring).ending =
      .ok status) ∧ Answers capture replies opened (earlier ++ [last]).zipIdx ∧
      ((chain opened earlier last port).Manned r.kernel earlier.length → ∀ c,
        account.on c = final c) ∧
      (¬ (chain opened earlier last port).Manned r.kernel earlier.length → account = []) ∧
      (chain opened earlier last port).Delivers
      (s.screen.bytesOn .out ++ said ++ if last.isBuiltin then
          (replies earlier.length).flatMap fun e =>
            if last.redirections.route e.1 = .screen .out then Utf8.encode e.2 else [] else [])
        (content ++ account.taken last.redirections.merges)
        (runWired capture opened (earlier ++ [last]) wiring).session ∧
      (runWired capture opened (earlier ++ [last]) wiring).session.direct = s.direct := by
  have hopens := opens_openRedirections h.opens
  obtain ⟨hout, herr⟩ := route_openRedirections h.opens
  have hbeside := beside_atStart opened wiring earlier last
  obtain ⟨output, work, hy, rfl, hwork⟩ := hcomposes.yields
  have hyields : Yields (atStart opened wiring earlier last).session replies (earlier ++ [last])
      output work :=
    ⟨fun i stage hi => (hy.produces i stage hi).congr (start_atStart opened wiring earlier last)⟩
  have hcontent (hport : port = .tap (.screen .out)) : content = [] := by
    have hspilled : (atStart opened wiring earlier last).kernel.spilledOn (.screen .out) =
        content := by
      rw [hport] at hlanded
      exact hlanded
    rw [← hspilled, Kernel.spilledOn, h.spilled_atStart]
    rfl
  have hends : r.Holding (fun _ => True) (Run.callEnds (earlier ++ [last]) 0) := by
    have hholding : (atStart opened wiring earlier last).Holding (fun _ => True)
        (Run.startEnds (earlier ++ [last]) 0) :=
      (Ledger.holding_ofStages _ (earlier ++ [last])).congr Run.startEnds_zero
    obtain ⟨P, hP, heq⟩ := Run.holding_starts rfl hholding hspawn
    exact heq rfl ▸ hP
  have hroute (c : Channel) : r.outletFor earlier.length c = last.redirections.route c := by
    have hlast : r.isLast earlier.length = true := by
      rw [Run.isLast, hstaffed.stages]
      exact isLast_atStart
    have hwiring : r.wiring = wiring := hstaffed.wiring
    cases c with
    | out => rw [Run.outletFor, Run.outOutlet, if_pos hlast, hwiring, hout]
    | err => rw [Run.outletFor, Run.errOutlet, if_pos hlast, hwiring, herr]
  have hminds (stage : Stage) (i : Nat) (b : Builtin) (r' : Run)
      (hcall : Run.Calls capture (earlier ++ [last]).zipIdx r stage i b r') :
      Minds (chain opened earlier last port) capture replies stage i b r' := by
    have hcalled := h.calls_of_calls hspawn hcall
    obtain ⟨hai, hcalm⟩ := h.calls stage i b r' hcalled
    exact ⟨hai, hcalm, hreplies stage i b r' hcalled, hleaves stage i b r' hcall⟩
  obtain ⟨r', account, hran, hmanned, hunmanned, hdelivers, hdirect, hanswers⟩ := hstaffed.conducts
    (Run.holds_spawnAll h.atRest h.opens hspawn hstaffed.couples hstaffed.stages) hyields rfl
      h.several hends hlanded
    hcontent haside (by
      rw [(idles_atStart opened wiring earlier last).patience, hopens.patience]
      exact hwork ▸ hpatience)
    (by obtain ⟨k, rfl⟩ := h.opened_eq; exact h.atRest.interrupts)
    hminds hbuiltin (hout ▸ last.redirections.route_ne_next .out)
      (herr ▸ last.redirections.route_ne_next .err)
  have hwired : runWired capture opened (earlier ++ [last]) wiring =
      r'.join.tidy.outcome (.ok r'.join.tidy.lastStatus) := by
    unfold runWired
    dsimp only
    rw [show Run.init opened (earlier ++ [last]) wiring = atStart opened wiring earlier last
      from rfl, hspawn]
    dsimp only
    rw [hran]
  simp only [hroute] at hdelivers
  rw [hwired]
  refine ⟨account, ⟨_, rfl⟩, hanswers.of_beside hbeside, ?_, hunmanned, ?_, ?_⟩
  · rw [List.length_append, List.length_singleton, Nat.add_sub_cancel]
    exact hmanned
  · rw [show (atStart opened wiring earlier last).session.screen = opened.screen from rfl,
      h.screen_eq] at hdelivers
    exact hdelivers
  · exact hdirect.trans (hbeside.direct.trans h.direct_eq)

end Composable

end CommandShell.Pipeline
