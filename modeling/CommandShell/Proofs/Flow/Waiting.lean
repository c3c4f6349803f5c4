import CommandShell.Proofs.Flow.Calling
import CommandShell.Proofs.Flow.Showing
import CommandShell.Proofs.Rest

/-!
# Waiting for a chain

When all builtins have been called the shell holds none of the pipes any more. It waits until nobody
writes to its streams, shows what it has read of them, and waits for the programs. By then the last
program has written all that it was going to write, and the terminal or the file has got it.

## Main statements

- `Pipeline.Run.Drives.gathers`: what the shell reads of a chain.
- `Pipeline.Run.Awaits.collect`: the shell waits for the programs.
- `Pipeline.Run.Drives.delivers`: what has come of the chain in the end.
-/

namespace CommandShell

open Pipeline (Outlet Outlets)

namespace Pipeline

open Reader (bytesTo)

namespace Run

variable {C : Chain} {before : Bytes} {o : Outlook} {r : Run} {streams : List (Nat × Outlet)}
  {spilled : List Spill} {p : Port} {k : Kernel}

/-- What comes out of the streams of the pump, with the sinks that it is for. -/
def readings (streams : List (Nat × Outlet)) (spilled : List Spill) : List (Outlet × Spill) :=
  spilled.reverse.filterMap fun spill => (streamOf streams spill).map fun s => (s.2, spill)

/-- What comes out elsewhere. -/
def leftover (streams : List (Nat × Outlet)) (spilled : List Spill) : List Spill :=
  spilled.filter fun spill => !(streamOf streams spill).isSome

/-- What the shell reads is queued for the pump, with the ends of all streams behind it. -/
theorem gather_eq (r : Run) : r.gather =
    let r₁ := r.onKernel fun k => k.runPatiently fun k => !isFed r.streams k
    { r₁.onKernel fun k => { k with spilled := leftover r.streams r₁.kernel.spilled } with
      pump :=
        { queue := r.pump.queue ++
          ((Reader.chunks (readings r.streams r₁.kernel.spilled)).map fun c => (c.1, some c.2)) ++
            r.streams.map fun s => (s.2, none)
          active := r.pump.active }
      streams := [] } := by
  have hmine (spilled : List Spill) :
      ((spilled.filter fun spill => (streamOf r.streams spill).isSome).reverse.filterMap
        fun spill =>
        (streamOf r.streams spill).map fun s => (s.2, spill)) = readings r.streams spilled := by
    unfold readings
    rw [← List.filter_reverse, List.filterMap_filter]
    refine List.filterMap_congr fun spill _ => ?_
    cases streamOf r.streams spill <;> rfl
  unfold gather
  simp only [List.partition_eq_filter_filter]
  rw [Pump.foldl_post, Pump.foldl_finish, ← hmine]
  rfl

namespace Taps

/-- What is read of the stream that a chain ends in is for the terminal's output, and nothing else
is. -/
theorem readings (h : Taps p streams) {x : Outlet × Spill} (hx : x ∈ readings streams spilled) :
    (∃ c, x.1 = .screen c) ∧ (x.1 = .screen .out ↔ p = .tap x.2.tap) ∧ ∃ n,
      x.2.tap = .stream n := by
  obtain ⟨spill, -, hspill⟩ := List.mem_filterMap.mp hx
  obtain ⟨s, hs, rfl⟩ := Option.map_eq_some_iff.mp hspill
  unfold streamOf at hs
  split at hs
  · next n htap =>
    have hmem := List.mem_of_find?_eq_some hs
    obtain rfl : s.1 = n := by simpa using List.find?_some hs
    exact ⟨h.screen s hmem, htap ▸ h.out s hmem, s.1, htap⟩
  · cases hs

/-- A stream that is read leads somewhere. -/
theorem isSome_streamOf {n : Nat} (h : Taps (.tap (.stream n)) streams) {spill : Spill}
    (htap : spill.tap = .stream n) : (streamOf streams spill).isSome = true := by
  obtain ⟨x, hx, hn⟩ := h.read n rfl
  unfold streamOf
  rw [htap]
  dsimp only
  rw [List.find?_isSome]
  exact ⟨x, hx, by simpa using hn⟩

/-- The chunks for the terminal's output are what has come out of the stream that a chain ends
in. -/
theorem bytesTo_stream {n : Nat} (h : Taps (.tap (.stream n)) streams) (k : Kernel) :
    bytesTo (.screen .out) (Reader.chunks (Run.readings streams k.spilled)) =
      k.spilledOn (.stream n) := by
  have hsinks (x : Outlet × Spill) (hx : x ∈ Run.readings streams k.spilled) :
      x.1 = .screen .out ↔ x.2.tap = .stream n := by
    rw [(h.readings hx).2.1]
    exact ⟨fun heq => (Port.tap.inj heq).symm, fun heq => congrArg Port.tap heq.symm⟩
  rw [Reader.bytesTo_chunks hsinks,
    List.filter_congr (q := fun x => x.2.tap = .stream n) fun x hx =>
    decide_eq_decide.mpr (hsinks x hx)]
  unfold Kernel.spilledOn Run.readings
  induction k.spilled.reverse with
  | nil => rfl
  | cons spill rest ih =>
    by_cases htap : spill.tap = .stream n
    · obtain ⟨s, hs⟩ := Option.isSome_iff_exists.mp (h.isSome_streamOf htap)
      simp [hs, htap, ih]
    · cases hs : streamOf streams spill <;> simp [hs, htap, ih]

/-- If a chain ends elsewhere, nothing is for the terminal's output. -/
theorem bytesTo_other (h : Taps p streams) (hp : ∀ n, p ≠ .tap (.stream n)) (spilled : List Spill) :
    bytesTo (.screen .out) (Reader.chunks (Run.readings streams spilled)) = [] := by
  have hsinks (x : Outlet × Spill) (hx : x ∈ Run.readings streams spilled) :
      x.1 ≠ .screen .out := by
    obtain ⟨-, hout, n, htap⟩ := h.readings hx
    rw [Ne, hout, htap]
    exact hp n
  have hchunks :=
    Reader.forall_chunksFrom (P := fun outlet : Outlet => outlet ≠ .screen .out) hsinks
    (List.forall_mem_nil _)
  unfold bytesTo
  rw [List.filter_eq_nil_iff.mpr fun x hx => by simpa using hchunks x hx]
  rfl

/-- What has been read of the stream is not there any more. -/
theorem landed_stream {n : Nat} (h : Taps (.tap (.stream n)) streams) (k : Kernel) :
    Kernel.Landed { k with spilled := leftover streams k.spilled } (.tap (.stream n)) [] := by
  change Kernel.spilledOn _ _ = []
  unfold Kernel.spilledOn leftover
  rw [List.flatMap_eq_nil_iff]
  intro spill hmem
  obtain ⟨hkept, htap⟩ := List.mem_filter.mp hmem
  have hsome := h.isSome_streamOf (of_decide_eq_true htap)
  have hnone : streamOf streams spill = none := by
    simpa using (List.mem_filter.mp (List.mem_reverse.mp hkept)).2
  simp [hnone] at hsome

end Taps

/-- What has come out elsewhere is there still. -/
theorem landed_leftover (hp : ∀ n, p ≠ .tap (.stream n)) {bytes : Bytes} (hl : k.Landed p bytes) :
    Kernel.Landed { k with spilled := leftover streams k.spilled } p bytes := by
  cases p with
  | nowhere => trivial
  | file => exact hl
  | tap t =>
    cases t with
    | stream n => exact absurd rfl (hp n)
    | screen c =>
      refine Eq.trans ?_ hl
      unfold Kernel.spilledOn leftover
      rw [← List.filter_reverse, List.filter_filter]
      refine congrArg (List.flatMap _) (List.filter_congr fun spill _ => ?_)
      by_cases htap : spill.tap = .screen c
      · simp [htap, streamOf]
      · simp [htap]

end Run

end Pipeline

/-- Nothing has been written if nothing has been written on any channel. -/
theorem Account.eq_nil {a : Account} (h : ∀ c, a.on c = []) : a = [] := by
  refine List.eq_nil_iff_forall_not_mem.mpr fun x hx => ?_
  have hnone := List.filter_eq_nil_iff.mp (List.map_eq_nil_iff.mp (h x.1)) x hx
  simp at hnone

namespace Chain

variable {C : Chain} {shown before : Bytes} {o : Outlook} {k : Kernel} {s : Session}

/-- Tasks that run no program are forgotten. -/
theorem Flows.reap (h : C.Flows shown o k) (hnobody : ∀ i, ¬ C.Manned k i) {tasks : List Task}
    (htasks : tasks.Sublist k.tasks) : C.Flows shown o { k with tasks } where
  tasks t ht := by
    obtain ⟨i, err, hw⟩ | hc := h.tasks t (htasks.mem ht)
    · exact absurd ⟨t, htasks.mem ht, err, hw.mans⟩ (hnobody i)
    · exact .inr hc
  pids := h.pids.sublist (htasks.map _)
  seats t ht u hu := h.seats t (htasks.mem ht) u (htasks.mem hu)
  reading := h.reading
  dry _ _ _ _ hm := by
    obtain ⟨t, ht, err, hmans⟩ := hm
    exact absurd ⟨t, htasks.mem ht, err, hmans⟩ (hnobody _)
  done i hi _ := h.done i hi (hnobody i)
  port := h.port
  landed := h.landed

theorem Evolves.of_sublist {own : Nat → Prop} {k' : Kernel} (htasks : k'.tasks.Sublist k.tasks) :
    C.Evolves own o k o k' :=
  ⟨fun t ht _ _ hm => ⟨t, htasks.mem ht, rfl, hm⟩, fun _ _ _ => rfl,
    ⟨[], by simp, fun _ _ _ => rfl⟩, Nat.le_refl _⟩

/-- What the shell reads of what has come out of a chain. -/
def read (C : Chain) (o : Outlook) : Bytes :=
  match C.port with
  | .tap (.stream _) => o.arrived
  | _ => []

/-- The outlook when the shell has read what it reads. -/
def spared (C : Chain) (o : Outlook) : Outlook where
  coming := o.coming
  work := o.work
  arrived :=
    match C.port with
    | .tap (.stream _) => []
    | _ => o.arrived

theorem read_append_spared (C : Chain) (o : Outlook) :
    C.read o ++ (C.spared o).arrived = o.arrived := by
  unfold read spared
  rcases C.port with (_ | _) | _ | _ <;> simp

theorem read_of_stream {n : Nat} (h : C.port = .tap (.stream n)) (o : Outlook) :
    C.read o = o.arrived := by
  unfold read
  rw [h]

theorem spared_of_stream {n : Nat} (h : C.port = .tap (.stream n)) (o : Outlook) :
    (C.spared o).arrived = [] := by
  unfold spared
  rw [h]

theorem read_of_other (h : ∀ n, C.port ≠ .tap (.stream n)) (o : Outlook) : C.read o = [] := by
  unfold read
  split
  · next n hport => exact absurd hport (h n)
  · rfl

theorem spared_of_other (h : ∀ n, C.port ≠ .tap (.stream n)) (o : Outlook) : C.spared o = o := by
  unfold spared
  split
  · next n hport => exact absurd hport (h n)
  · rfl

theorem not_live_of_stream {n : Nat} (h : C.port = .tap (.stream n)) (s : Session) :
    ¬ C.Live s := by
  rintro ⟨hport, -⟩
  rw [h] at hport
  cases hport

/-- What the shell has read is gone; what has come out elsewhere is still there. -/
theorem Flows.spared (h : C.Flows shown o k) {streams : List (Nat × Outlet)}
    (ht : Pipeline.Run.Taps C.port streams)
    (hshown : (∃ n, C.port = .tap (.stream n)) → shown = []) :
    C.Flows shown (C.spared o) { k with spilled := Pipeline.Run.leftover streams k.spilled } ∧
      Pipeline.Reader.bytesTo (.screen .out)
        (Pipeline.Reader.chunks (Pipeline.Run.readings streams k.spilled)) = C.read o := by
  obtain ⟨bytes, hlanded, harrived⟩ := h.landed
  have hapart : k.Apart { k with spilled := Pipeline.Run.leftover streams k.spilled } :=
    .of_eq rfl rfl rfl rfl
  by_cases hstream : ∃ n, C.port = .tap (.stream n)
  · obtain rfl := hshown hstream
    obtain ⟨n, hport⟩ := hstream
    rw [List.nil_append] at harrived
    rw [hport] at ht hlanded
    refine ⟨h.apart hapart (C.spared o).arrived ⟨[], ?_, C.spared_of_stream hport o⟩, ?_⟩
    · rw [hport]
      exact ht.landed_stream k
    · rw [ht.bytesTo_stream, C.read_of_stream hport, harrived]
      exact hlanded
  · have hother (n : Nat) (hport : C.port = .tap (.stream n)) : False := hstream ⟨n, hport⟩
    rw [spared_of_other hother, read_of_other hother]
    exact ⟨h.apart hapart o.arrived ⟨bytes, Pipeline.Run.landed_leftover hother hlanded, harrived⟩,
      ht.bytesTo_other hother _⟩

/-- What has been read of a chain is shown behind what was shown before. -/
theorem Shows.fed (h : C.Shows before (C.spared o) s) {outlets : Outlets} {x : Outlets × Session}
    (hf : Outlets.Fed (s.screen.bytesOn .out) (C.read o) (outlets, s) x) :
    C.Shows (before ++ Utf8.encode (Utf8.feed .none (C.read o)).1) (C.spared o) x.2 := by
  have hworld : x.2.world = s.world := by rw [hf.session]
  have hdirect : x.2.direct = s.direct := by rw [hf.session]
  refine ⟨?_, h.aside, fun hor => ?_⟩ <;> rw [visible_congr hdirect]
  · rw [hworld]
    exact h.flows
  · rw [live_congr hdirect, hdirect] at hor
    rw [hf.shown, h.screen hor, List.append_assoc, List.append_assoc]
    -- Either nothing has been read, or nothing has come out on the terminal.
    by_cases hl : C.Live s
    · have hnone : C.read o = [] :=
        C.read_of_other (fun n hport => C.not_live_of_stream hport s hl) o
      have hempty : Utf8.encode (Utf8.feed .none []).1 = [] := rfl
      rw [hnone, hempty, List.append_nil, List.nil_append]
    · simp [visible_of_not_live hl]

end Chain

namespace Pipeline

open Reader (bytesTo)

namespace Run

variable {C : Chain} {before : Bytes} {o : Outlook} {r : Run} {streams : List (Nat × Outlet)}
  {k : Kernel}

/-- What the shell holds when all builtins have been called. -/
theorem Drives.unheld (h : Drives C before o C.length r) {i : Nat} (hi : i + 1 < C.length) :
    .writer (C.base + i) ∉ r.kernel.held := by
  rw [h.holds.writer i hi]
  omega

/-- A program that writes to a stream is waited for while the shell reads. -/
theorem isFed_of_manned {n i : Nat} (htaps : Taps C.port streams)
    (hport : C.port = .tap (.stream n)) (hi : i + 1 = C.length) (hm : C.Manned k i) :
      isFed streams k = true := by
  obtain ⟨x, hx, rfl⟩ := htaps.read n hport
  obtain ⟨t, ht, err, hmans⟩ := hm
  refine List.any_eq_true.mpr ⟨x, hx, Kernel.isHeld_iff.mpr (.inr ⟨t, ht, ?_⟩)⟩
  rw [hmans.handles]
  have houtput : C.output i = .tap (.stream x.1) := by
    unfold Chain.output
    rw [if_neg (by omega), hport]
    rfl
  simp [houtput]

/-- A run in which the shell has read what comes out of its streams, and is about to show it. -/
structure Gathers (C : Chain) (before : Bytes) (o : Outlook) (r : Run)
    (chunks : List (Outlet × Bytes)) (o' : Outlook) (r' : Run) : Prop where
  ledger : r'.toLedger = r.toLedger
  wiring : r'.wiring = r.wiring
  pump : r'.pump =
    { queue := (chunks.map fun c => (c.1, some c.2)) ++ (r.streams.map Prod.snd).map fun e =>
      (e, none)
      active := (r.streams.map Prod.snd).length }
  ends : r.streams.map Prod.snd = [] → chunks = []
  screens : ∀ e ∈ chunks, ∃ c, e.1 = .screen c
  bytes : bytesTo (.screen .out) chunks = C.read o'
  shows : C.Shows before (C.spared o') r'.session
  proceeds : C.Proceeds (fun _ => False) o r.session o' r'.session
  held : r'.kernel.held = r.kernel.held
  finished : (∃ n, C.port = .tap (.stream n)) → ∀ i, i + 1 = C.length → ¬ C.Manned r'.kernel i

/-- The shell reads until nobody writes to its streams any more. -/
theorem Drives.gathers (h : Drives C before o C.length r) :
    ∃ chunks o', Gathers C before o r chunks o' r.gather := by
  obtain ⟨o', hruns, hheld, hpatience, hend⟩ :=
    h.shows.flows.runPatiently (fun k => !isFed r.streams k) h.patience
  obtain ⟨hran, hfirst, hapart⟩ := h.shows.proceeds hruns.flows hruns.evolves hruns.still hpatience
  have hgather := r.gather_eq
  dsimp only at hgather
  set r₁ := r.onKernel fun k => k.runPatiently fun k => !isFed r.streams k
  change C.Shows before o' r₁.session at hran
  change C.Proceeds _ o r.session o' r₁.session at hfirst
  change Kernel.Apart _ r₁.kernel at hapart
  obtain ⟨hflows, hbytes⟩ := hran.flows.spared h.taps fun ⟨n, hport⟩ =>
    C.visible_of_not_live (C.not_live_of_stream hport _) o'
  obtain ⟨hshows, hsecond, hapart₂⟩ := hran.proceeds hflows
    (show C.Evolves (fun _ => False) o' _ o' _ from .of_tasks rfl) (.of_eq rfl rfl) rfl
  change C.Shows before (C.spared o')
    (r₁.onKernel fun k => { k with spilled := leftover r.streams r₁.kernel.spilled }).session
      at hshows
  rw [hgather]
  refine ⟨Reader.chunks (readings r.streams r₁.kernel.spilled), o', {
    ledger := rfl
    wiring := rfl
    pump := ?_
    ends := ?_
    screens := ?_
    bytes := hbytes
    shows := hshows
    proceeds := hfirst.trans hsecond
    held := hapart₂.held.trans (hapart.held.trans hheld)
    finished := ?_ }⟩
  · simp [h.pump]
  · intro hnone
    have hstreams : r.streams = [] := List.map_eq_nil_iff.mp hnone
    have hreadings : readings r.streams r₁.kernel.spilled = [] := by
      unfold readings
      rw [List.filterMap_eq_nil_iff]
      intro spill _
      rw [hstreams]
      unfold streamOf
      split <;> rfl
    rw [hreadings]
    rfl
  · exact Reader.forall_chunksFrom (P := fun outlet : Outlet => ∃ c, outlet = .screen c)
      (fun x hx => (h.taps.readings hx).1) (List.forall_mem_nil _)
  · rintro ⟨n, hport⟩ i hi hm
    have hm₁ := (Chain.manned_congr hapart.tasks i).mp ((Chain.manned_congr hapart₂.tasks i).mp hm)
    have hfed := isFed_of_manned h.taps hport hi hm₁
    refine hruns.flows.unmanned_of_blocked (hend.resolve_left (by simp [hfed]))
      (fun j hj => ?_) i hm₁
    rw [hheld]
    exact h.unheld hj

/-- A run in which the shell waits for programs, when it has shown what it reads; those of some jobs
may be at work. -/
structure Awaits (C : Chain) (before : Bytes) (o : Outlook) (jobs : List Job) (r : Run) : Prop where
  shows : C.Shows before o r.session
  patience : C.total o < r.kernel.patience
  unheld : ∀ i, i + 1 < C.length → .writer (C.base + i) ∉ r.kernel.held
  jobs : ∀ t ∈ r.kernel.tasks, ∀ i err, C.Mans i err t → ∃ job ∈ jobs, job.pid = t.pid
  idle : ∀ c sink, r.wiring.outlets.heldSink (.file c) = some sink → sink.Idle

/-- The sinks of the terminal have been fed nothing since they were last flushed. -/
theorem fed_of_poised {outlets : Outlets} {s : Session} (h : outlets.Poised (fun _ => False) s) :
    Outlets.Fed (s.screen.bytesOn .out) [] (outlets, s) (outlets, s) where
  session := rfl
  files _ := rfl
  sinks c := ⟨.none, h.screens c⟩
  pending := by
    rw [h.screens]
    rfl
  shown := (List.append_nil _).symm

/-- The shell shows what it has read. -/
theorem Drives.drains (h : Drives C before o C.length r) :
    ∃ o' r', r.drain none = (r', .drained none) ∧
    Awaits C (before ++ Utf8.encode (Utf8.feed .none (C.read o')).1) (C.spared o') r.jobs r' ∧
    C.Proceeds (fun _ => False) o r.session o' r'.session ∧ r'.toLedger = r.toLedger ∧
    ((∃ n, C.port = .tap (.stream n)) → ∀ i, i + 1 = C.length → ¬ C.Manned r'.kernel i) := by
  obtain ⟨chunks, o', hg⟩ := h.gathers
  have hpoised : r.gather.wiring.outlets.Poised (fun _ => False) r.gather.session := by
    rw [hg.wiring]
    have hheld : r.gather.session.world.held = r.session.world.held := hg.held
    exact h.poised.congr hg.proceeds.beside.direct fun x hx =>
      hg.proceeds.beside.still.takes (fun n hn => hheld ▸ hn) hx
  have hfed := (fed_of_poised hpoised).pourAll hg.screens
  rw [List.nil_append, hg.bytes] at hfed
  have hdrained := Pump.drain_all Outlets.pour chunks (r.streams.map Prod.snd) hg.ends
    (r.gather.wiring.outlets, r.gather.session)
  rw [← hg.pump] at hdrained
  generalize chunks.foldl (fun x c => Outlets.pour c.1 c.2 x) (r.gather.wiring.outlets,
    r.gather.session) = x
    at hfed hdrained
  have hworld : x.2.world = r.gather.session.world := by rw [hfed.session]
  have hproceeds : C.Proceeds (fun _ => False) o r.session o' x.2 := by
    refine hg.proceeds.trans (.of_world ?_ hworld)
    rw [hfed.session]
    exact .shown _ _
  let r' : Run :=
    { r.gather with pump := {}, session := x.2, wiring := { r.gather.wiring with outlets := x.1 } }
  have hkernel : r'.kernel = r.gather.kernel := congrArg World.toKernel hworld
  have hresult : r.drain none = (r', .drained none) := by
    unfold Outlets.pour at hdrained
    unfold drain
    simp only [hdrained]
    rfl
  refine ⟨o', r', hresult, {
    shows := hg.shows.fed hfed
    patience := ?_
    unheld := fun i hi => ?_
    jobs := fun t ht i err hm => ?_
    idle := fun c sink hs => ?_ }, hproceeds, hg.ledger, fun hstream i hi => ?_⟩
  · have hsame : r'.kernel.patience = r.kernel.patience := hproceeds.patience
    rw [hsame]
    exact Nat.lt_of_le_of_lt hproceeds.evolves.work h.patience
  · rw [hkernel, hg.held]
    exact h.unheld hi
  · obtain ⟨u, hu, hpid, hmu⟩ := hproceeds.evolves.manned t ht i err hm
    rw [← hpid]
    exact h.jobs u hu i err hmu
  · obtain ⟨x, -, -, hclean⟩ := hpoised.files c sink ((hfed.files c).symm.trans hs)
    obtain rfl := hclean id
    exact ⟨rfl, rfl, rfl⟩
  · rw [hkernel]
    exact hg.finished hstream i hi

namespace Awaits

variable {job : Job} {jobs : List Job}

/-- A program is waited for. -/
theorem awaitJob (h : Awaits C before o (job :: jobs) r) :
    ∃ o', Awaits C before o' jobs (r.awaitJob job) ∧
    C.Proceeds (fun _ => False) o r.session o' (r.awaitJob job).session := by
  obtain ⟨o', hruns, hheld, hpatience, hended⟩ := h.shows.flows.await h.patience h.unheld job.pid
  obtain ⟨hshows, hproceeds, hapart⟩ :=
    h.shows.proceeds hruns.flows hruns.evolves hruns.still hpatience
  change Kernel.Apart _ (r.awaitJob job).kernel at hapart
  refine ⟨o', ⟨hshows, ?_, fun i hi => ?_, fun t ht i err hm => ?_, h.idle⟩, hproceeds⟩
  · have hsame : (r.awaitJob job).kernel.patience = r.kernel.patience := hproceeds.patience
    rw [hsame]
    exact Nat.lt_of_le_of_lt hproceeds.evolves.work h.patience
  · rw [hapart.held, hheld]
    exact h.unheld i hi
  · obtain ⟨u, hu, hpid, hmu⟩ := hproceeds.evolves.manned t ht i err hm
    obtain ⟨job', hjob, hpid'⟩ := h.jobs u hu i err hmu
    rcases List.mem_cons.mp hjob with rfl | hrest
    · exact absurd (hpid'.trans hpid).symm
        (hruns.flows.ne_of_hasEnded hended (hapart.tasks ▸ ht) hm)
    · exact ⟨job', hrest, hpid'.trans hpid⟩

/-- All programs are waited for. -/
theorem collect (h : Awaits C before o jobs r) :
    ∃ o' r', Run.collect jobs none r = (r', some none) ∧
    Awaits C before o' [] r' ∧ C.Proceeds (fun _ => False) o r.session o' r'.session := by
  induction jobs generalizing r o with
  | nil => exact ⟨o, r, rfl, h, .refl o r.session⟩
  | cons job rest ih =>
    obtain ⟨o₁, h₁, hfirst⟩ := h.awaitJob
    obtain ⟨o', r', hrun, h', hrest⟩ := ih h₁
    exact ⟨o', r', hrun, h', hfirst.trans hrest⟩

/-- When all programs have been waited for none is at work. -/
theorem unmanned (h : Awaits C before o [] r) (i : Nat) : ¬ C.Manned r.kernel i := by
  rintro ⟨t, ht, err, hm⟩
  obtain ⟨job, hjob, -⟩ := h.jobs t ht i err hm
  cases hjob

end Awaits

/-- Programs that have been waited for are forgotten. -/
theorem reap_eq (jobs : List Job) (k : Kernel) :
    ∃ tasks, jobs.foldl (fun k job => k.reap job.pid) k = { k with tasks } ∧
      tasks.Sublist k.tasks := by
  induction jobs generalizing k with
  | nil => exact ⟨k.tasks, rfl, .refl _⟩
  | cons job rest ih =>
    obtain ⟨tasks, heq, hsub⟩ := ih (k.reap job.pid)
    exact ⟨tasks, heq, hsub.trans List.filter_sublist⟩

/-- Nothing else happens when programs that have ended are forgotten. -/
theorem Awaits.reap (h : Awaits C before o [] r) (jobs : List Job) : ∃ tasks,
    (jobs.foldl (fun k job => k.reap job.pid) r.kernel).settle = { r.kernel with tasks } ∧
      tasks.Sublist r.kernel.tasks := by
  obtain ⟨tasks, heq, hsub⟩ := reap_eq jobs r.kernel
  refine ⟨tasks, ?_, hsub⟩
  rw [heq]
  refine Kernel.settle_of_ended fun t ht => ?_
  obtain ⟨i, err, hw⟩ | hc := h.shows.flows.tasks t (hsub.mem ht)
  · exact absurd ⟨t, hsub.mem ht, err, hw.mans⟩ (h.unmanned i)
  · simpa [Task.isRunning] using hc.ended

/-- A run in which the shell has read what it reads of a chain, shown it, and waited for all
programs. -/
structure Joins (C : Chain) (before read : Bytes) (o : Outlook) (r r' : Run) : Prop where
  shows : C.Shows (before ++ Utf8.encode (Utf8.feed .none read).1) o r'.session
  streamed : (∃ n, C.port = .tap (.stream n)) → o.arrived = []
  other : (∀ n, C.port ≠ .tap (.stream n)) → read = []
  idle : ∀ c sink, r'.wiring.outlets.heldSink (.file c) = some sink → sink.Idle
  openEnds : r'.openEnds = r.openEnds
  direct : r'.session.direct = r.session.direct

/-- What the last program was still going to write has come to the end of the chain when the shell
has waited. -/
theorem Drives.joins (h : Drives C before o C.length r) (hlength : 0 < C.length) :
    ∃ (account : Account) (read : Bytes) (o' : Outlook),
      (∀ i, i + 1 = C.length → ∀ c, o.coming i c = account.on c) ∧
      o.arrived ++ account.taken C.merges = read ++ o'.arrived ∧
        Joins C before read o' r r.join := by
  let r₁ := r.note (.waiting r.kernel.held)
  have h₁ : Drives C before o C.length r₁ :=
    h.onwards ⟨rfl, rfl, rfl, rfl, rfl, rfl, rfl⟩ h.shows h.poised ⟨h.holds.reader, h.holds.writer,
      h.holds.single⟩ (show C.Evolves (fun _ => False) o _ o _ from .refl o r.kernel) rfl rfl
  obtain ⟨o₁, r₂, hdrain, h₂, hread, hledger, hfinished⟩ := h₁.drains
  obtain ⟨o₂, r₃, hcollect, h₃, hrest⟩ := h₂.collect
  have hawait : await r₁.session.interrupts r₁ = r₃ := by
    have hnone : r₁.session.interrupts = [] := h.interrupts
    have hjobs : r₂.jobs = r₁.jobs := congrArg Ledger.jobs hledger
    rw [hnone]
    simp only [await, waitOnce, hdrain, hjobs, hcollect]
  obtain ⟨tasks, hreaped, hsub⟩ := h₃.reap r₃.jobs
  have hjoin : r.join = r₃.onKernel fun _ => { r₃.kernel with tasks } := by
    unfold join
    dsimp only
    rw [hawait, ← hreaped]
    rfl
  obtain ⟨more, harrived, hcoming⟩ := hread.evolves.lands
  obtain ⟨more', harrived', hcoming'⟩ := hrest.evolves.lands
  refine ⟨more ++ more', C.read o₁, o₂, fun i hi c => ?_, ?_, ?_⟩
  · have hdone := h₃.shows.flows.done i hi (h₃.unmanned i) c
    have hlast : o₁.coming i c = more'.on c ++ o₂.coming i c := hcoming' i hi c
    rw [hcoming i hi, hlast, hdone, List.append_nil, Account.on_append]
  · rw [Account.taken_append, ← List.append_assoc, ← harrived, ← C.read_append_spared o₁,
      List.append_assoc, ← harrived']
  · have hends : r.join.openEnds = r.openEnds :=
      join_invariant (P := fun l => l.openEnds = r.openEnds) (fun _ _ _ _ h => h) rfl
    rw [hjoin] at hends ⊢
    obtain ⟨hshows, hproceeds, -⟩ := h₃.shows.proceeds (h₃.shows.flows.reap h₃.unmanned hsub)
      (show C.Evolves (fun _ => False) o₂ _ o₂ _ from .of_sublist hsub) (.of_eq rfl rfl) rfl
    refine ⟨hshows, fun hstream => ?_, fun hother => C.read_of_other hother o₁, h₃.idle, hends, ?_⟩
    · -- The last program has ended before.
      obtain ⟨i, hi⟩ : ∃ i, i + 1 = C.length := ⟨C.length - 1, by omega⟩
      have hsilent (c : Channel) : more'.on c = [] := by
        have hdone := h₂.shows.flows.done i hi (hfinished hstream i hi) c
        rw [hcoming' i hi c] at hdone
        exact (List.append_eq_nil_iff.mp hdone).1
      obtain ⟨n, hport⟩ := hstream
      rw [harrived', C.spared_of_stream hport, Account.eq_nil hsilent]
      rfl
    · exact hproceeds.beside.direct.trans (hrest.beside.direct.trans hread.beside.direct)

end Run

end Pipeline

end CommandShell
