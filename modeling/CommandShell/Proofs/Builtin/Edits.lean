import CommandShell.Builtin
import CommandShell.Proofs.Conversing

/-!
# What builtins change

A builtin changes few parts of a session by itself, and its host changes when it is given a session,
when it takes a text and, if a chat model is asked, when that is sent a message and when a command
line is run for it. So whatever survives these survives every builtin.

## Main statements

- `Builtin.edited_take`: the session of a reply is an edited one.
- `Builtin.runFor_takes`: a property of the host is kept by a builtin that asks no chat model if
  writing and edited sessions keep it.
- `Builtin.runFor_invariant`: it is kept by every builtin if messages and captured lines keep it as
  well.
-/

namespace CommandShell

theorem except_map_eq_ok {ε α β : Type} {f : α → β} {x : Except ε α} {b : β} :
    x.map f = .ok b ↔ ∃ a, x = .ok a ∧ f a = b := by
  cases x <;> simp [Except.map]

/-- A history whose entries are those of another one or have been read from files. -/
def History.DrawsOn (h h' : History) : Prop :=
  ∀ entry ∈ h'.entries, entry ∈ h.entries ∨ ∃ content, entry ∈ History.entriesOf content

theorem History.DrawsOn.refl (h : History) : h.DrawsOn h := fun _ he => .inl he

theorem History.DrawsOn.of_entries_eq {h h' : History} (he : h'.entries = h.entries) :
    h.DrawsOn h' :=
  fun _ hentry => .inl (he ▸ hentry)

theorem History.DrawsOn.trans {h h' h'' : History} (hd : h.DrawsOn h') (gd : h'.DrawsOn h'') :
    h.DrawsOn h'' := fun entry he => (gd entry he).elim (hd entry) .inr

/-- A session that differs from another one in nothing but what builtins change by themselves: the
working directory, the history, the log and what it echoes, and the files. A new working directory
is named from the root on. -/
structure Session.Edited (s s' : Session) : Prop where
  history : s.history.DrawsOn s'.history
  cwd : s'.cwd = s.cwd ∨ s'.cwd.isAbsolute = true
  environment : s'.environment = s.environment
  settings : s'.settings = s.settings
  client : s'.client = s.client
  messages : s'.messages = s.messages
  lastStatus : s'.lastStatus = s.lastStatus
  machine : s'.machine = s.machine
  direct : s'.direct = s.direct
  interrupts : s'.interrupts = s.interrupts
  world : ∃ files, s'.world = { s.world with files }
  echo : s'.log.echo = s.log.echo
  screen : ∃ shown : Screen, (∀ e ∈ shown, e.echo = true) ∧ s'.screen = s.screen ++ shown
  /-- Nothing but echoes is shown. -/
  quiet : s.log.echo = none → s'.screen = s.screen

namespace Session.Edited

variable {s s' t : Session}

theorem refl (s : Session) : s.Edited s :=
  ⟨.refl _, .inl rfl, rfl, rfl, rfl, rfl, rfl, rfl, rfl, rfl, ⟨s.world.files, rfl⟩, rfl,
    ⟨[], by simp, by simp⟩, fun _ => rfl⟩

theorem trans (h : s.Edited s') (g : s'.Edited t) : s.Edited t := by
  obtain ⟨files, hw⟩ := h.world
  obtain ⟨files', gw⟩ := g.world
  obtain ⟨shown, hecho, hs⟩ := h.screen
  obtain ⟨shown', gecho, gs⟩ := g.screen
  have hcwd : t.cwd = s.cwd ∨ t.cwd.isAbsolute = true := by
    obtain hsame | habsolute := g.cwd
    · exact hsame ▸ h.cwd
    · exact .inr habsolute
  refine ⟨h.history.trans g.history, hcwd, g.environment.trans h.environment,
    g.settings.trans h.settings,
    g.client.trans h.client, g.messages.trans h.messages, g.lastStatus.trans h.lastStatus,
    g.machine.trans h.machine, g.direct.trans h.direct, g.interrupts.trans h.interrupts,
    ⟨files', by rw [gw, hw]⟩, g.echo.trans h.echo, ⟨shown ++ shown', ?_, by simp [gs, hs]⟩, ?_⟩
  · intro e he
    rcases List.mem_append.mp he with he | he
    · exact hecho e he
    · exact gecho e he
  · intro hquiet
    exact (g.quiet (h.echo.trans hquiet)).trans (h.quiet hquiet)

/-- A session with another history, log and files. -/
theorem of_parts (s : Session) {history : History} (hd : s.history.DrawsOn history)
    {log : Log Channel} (hecho : log.echo = s.log.echo) (files : FileSystem) :
    s.Edited { s with history, log, world := { s.world with files } } :=
  ⟨hd, .inl rfl, rfl, rfl, rfl, rfl, rfl, rfl, rfl, rfl, ⟨files, rfl⟩, hecho,
    ⟨[], by simp, by simp⟩, fun _ => rfl⟩

/-- A session in another directory. -/
theorem of_cwd (s : Session) {cwd : Path} (hc : cwd.isAbsolute = true) : s.Edited { s with cwd } :=
  ⟨.refl _, .inr hc, rfl, rfl, rfl, rfl, rfl, rfl, rfl, rfl, ⟨s.world.files, rfl⟩, rfl,
    ⟨[], by simp, by simp⟩, fun _ => rfl⟩

theorem of_world {w : World} (h : ∃ files, w = { s.world with files }) {history : History}
    (hd : s.history.DrawsOn history) : s.Edited { s with history, world := w } := by
  obtain ⟨files, rfl⟩ := h
  exact of_parts s hd rfl files

theorem note (s : Session) (level : Log.Level) (source message : String) (pid : Option Nat) :
    s.Edited (s.note level source message pid) := by
  have hecho : ∀ e : Log.Entry, (s.log.record e).1.echo = s.log.echo := fun _ => rfl
  have hquiet : ∀ e : Log.Entry, s.log.echo = none → (s.log.record e).2 = none := by
    intro e hnone
    simp [Log.record, hnone]
  unfold Session.note
  specialize hecho { level, message, source, pid := pid.map Int.ofNat }
  specialize hquiet { level, message, source, pid := pid.map Int.ofNat }
  generalize s.log.record _ = recorded at hecho hquiet ⊢
  obtain ⟨log, _ | ⟨channel, line⟩⟩ := recorded
  · exact of_parts s (.refl _) hecho s.world.files
  · exact ⟨.refl _, .inl rfl, rfl, rfl, rfl, rfl, rfl, rfl, rfl, rfl, ⟨s.world.files, rfl⟩, hecho,
      ⟨[_], by simp, rfl⟩, fun hnone => nomatch hquiet hnone⟩

end Session.Edited

theorem World.writeText_files (w : World) (p : Path) (mode : OpenMode) (text : String) :
    ∃ files, (w.writeText p mode text).1 = { w with files } := by
  unfold World.writeText
  split
  · exact ⟨w.files, rfl⟩
  · exact ⟨_, rfl⟩

theorem History.drawsOn_read {h h' : History} {w : World} {p : Path} {n : Nat}
    (hr : h.read w p = .ok (h', n)) : h.DrawsOn h' := by
  obtain ⟨content, -, heq⟩ := except_map_eq_ok.mp hr
  obtain ⟨rfl, -⟩ := Prod.mk.inj heq
  intro entry he
  exact (List.mem_append.mp he).imp_right fun hread => ⟨content, hread⟩

theorem History.write_files (h : History) (w : World) (p : Path) :
    (∃ files, (h.write w p).2.1 = { w with files }) ∧ h.DrawsOn (h.write w p).1 := by
  obtain ⟨files, hfiles⟩ := w.writeText_files p .truncate (Text.joinLines h.entries)
  unfold History.write
  split <;> next hw => exact ⟨⟨files, by rw [← hfiles, hw]⟩, .of_entries_eq rfl⟩

theorem History.appendTo_files (h : History) (w : World) (p : Path) :
    (∃ files, (h.appendTo w p).2.1 = { w with files }) ∧ h.DrawsOn (h.appendTo w p).1 := by
  obtain ⟨files, hfiles⟩ := w.writeText_files p .append (Text.joinLines h.unstored)
  unfold History.appendTo
  split
  · exact ⟨⟨w.files, rfl⟩, .refl h⟩
  · split <;> next hw => exact ⟨⟨files, by rw [← hfiles, hw]⟩, .of_entries_eq rfl⟩

theorem Settings.set_files (w : World) (p : Path) (key : String) (value : CodeUnits) :
    ∃ files, (Settings.set w p key value).1 = { w with files } := by
  unfold Settings.set
  split
  · exact ⟨w.files, rfl⟩
  · split
    · exact ⟨w.files, rfl⟩
    · split
      · exact ⟨_, rfl⟩
      · extract_lets config v
        obtain ⟨files, hv⟩ := v.writeText_files p .truncate (Json.renderMembers config)
        split <;> next hw => exact ⟨files, by rw [hw] at hv; exact hv⟩

theorem World.resolve_eq_ok {w : World} {p real : Path} (h : w.resolve p = .ok real) :
    real = .ofParts (w.files.realPlace w.directory p) := by
  unfold World.resolve at h
  dsimp only at h
  split at h <;> cases h
  rfl

theorem World.isAbsolute_of_resolve {w : World} {p real : Path} (h : w.resolve p = .ok real) :
    real.isAbsolute = true := by
  rw [World.resolve_eq_ok h, Path.isAbsolute_ofParts]

theorem Session.edited_flushHistory (s : Session) : s.Edited s.flushHistory.2 := by
  unfold Session.flushHistory
  split
  · exact .refl s
  · next file _ =>
    obtain ⟨hfiles, hdraws⟩ := s.history.write_files s.world file
    have hedited : s.Edited { s with
        history := (s.history.write s.world file).1, world :=
          (s.history.write s.world file).2.1 } :=
      .of_world hfiles hdraws
    split <;> next hw =>
      rw [hw] at hedited
      first
      | exact hedited
      | exact hedited.trans (.note _ _ _ _ _)

namespace Builtin

section Replies

variable (s : Session) (args : List String)

theorem edited_exit : s.Edited (runExit s args).session := by
  have h := s.edited_flushHistory
  unfold runExit
  dsimp only
  split
  · next hf => simpa [hf] using h
  · next hf => simpa [hf, faulty] using h

theorem edited_echo : s.Edited (runEcho s args).session := by
  unfold runEcho
  split <;> exact .refl s

theorem edited_enter (target : String) (path : Path) : s.Edited (enter s target path).session := by
  unfold enter
  split
  · exact .refl s
  · exact .refl s
  · split
    · exact .refl s
    · exact .refl s
    · split
      · exact .refl s
      · next hreal => exact .of_cwd s (World.isAbsolute_of_resolve hreal)

theorem edited_cd : s.Edited (runCd s args).session := by
  unfold runCd
  dsimp only
  split
  · split
    · exact .refl s
    · exact edited_enter s _ _
  · exact edited_enter s _ _

theorem edited_type : s.Edited (runType s args).session := by
  unfold runType
  split <;> exact .refl s

theorem edited_transfer (flag : HistoryFlag) (file : Path) : s.Edited (transfer s flag file).1 := by
  cases flag with
  | read =>
    simp only [transfer]
    split
    · next hr => exact .of_parts s (History.drawsOn_read hr) rfl s.world.files
    · exact .refl s
  | write =>
    obtain ⟨hfiles, hdraws⟩ := s.history.write_files s.world file
    exact .of_world hfiles hdraws
  | append =>
    obtain ⟨hfiles, hdraws⟩ := s.history.appendTo_files s.world file
    exact .of_world hfiles hdraws

theorem edited_history : s.Edited (runHistory s args).session := by
  unfold runHistory
  split
  · exact .refl s
  · exact .of_parts s (fun _ he => absurd he List.not_mem_nil) rfl s.world.files
  · split
    · split
      · exact .refl s
      · next flag _ _ file _ =>
        have hedited := edited_transfer s flag file
        split <;> next ht =>
          rw [ht] at hedited
          exact hedited
    · split <;> exact .refl s

theorem edited_changeSetting (file : Path) (key value : String) :
    s.Edited (changeSetting s file key value).session := by
  obtain ⟨files, hw⟩ := Settings.set_files s.world file key (.ofString value)
  unfold changeSetting
  extract_lets unknown
  split
  · exact .refl s
  · split <;> next hs =>
      rw [hs] at hw
      exact .of_world ⟨files, hw⟩ (.refl _)

theorem edited_log : s.Edited (runLog s args).session := by
  unfold runLog
  dsimp only
  split
  · split <;> exact .refl s
  · exact .of_parts s (.refl _) s.log.echo_clear s.world.files
  · split
    · split <;> exact .refl s
    · exact .refl s
  · exact .refl s

end Replies

section Hosts

variable {σ : Type} {P : σ → Prop} {h : Host σ} {capture : Capture}

/-- What a host keeps while it has a session and takes texts. -/
structure Host.Takes (h : Host σ) (P : σ → Prop) : Prop where
  write : ∀ channel text x, P x → P (h.write channel text x)
  setSession : ∀ s x, (h.session x).Edited s → P x → P (h.setSession s x)

/-- What a host also keeps while a chat model is asked and has lines run. -/
structure Host.Keeps (h : Host σ) (capture : Capture) (P : σ → Prop) : Prop extends h.Takes P where
  send : ∀ message x, P x →
    P (h.setSession { h.session x with messages := (h.session x).messages ++ [message] } x)
  run : ∀ line x, P x → P (h.setSession (capture line (h.session x)).2 x)

namespace Host.Takes

theorem take (hk : h.Takes P) {reply : Reply} {x : σ}
    (hr : (h.session x).Edited reply.session) (hx : P x) : P (h.take reply x).2 := by
  have hset := hk.setSession _ _ hr hx
  unfold Host.take
  dsimp only
  generalize h.setSession reply.session x = y at hset
  induction reply.writes generalizing y with
  | nil => exact hset
  | cons w ws ih => exact ih _ (hk.write _ _ _ hset)

theorem writeUnits (hk : h.Takes P) {channel : Channel} {units : CodeUnits} {x y : σ}
    (hw : h.writeUnits channel units x = .ok y) (hx : P x) : P y := by
  unfold Host.writeUnits at hw
  split at hw
  · cases hw
  · simp only [Except.ok.injEq] at hw
    exact hw ▸ hk.write _ _ _ hx

theorem writeLines (hk : h.Takes P) (channel : Channel) (lines : List CodeUnits) {x : σ}
    (hx : P x) : P (h.writeLines channel lines x).2 := by
  induction lines generalizing x with
  | nil => exact hx
  | cons line rest ih =>
    simp only [Host.writeLines]
    split
    · next hw => exact ih (hk.writeUnits hw hx)
    · exact hx

theorem config (hk : h.Takes P) (args : List String) {x : σ} (hx : P x) :
    P (runConfig h args x).2 := by
  unfold runConfig
  dsimp only
  split
  · exact hk.take (.refl _) hx
  · exact hk.writeLines _ _ hx
  · split
    · exact hk.take (.refl _) hx
    · exact hk.take (.refl _) hx
  · exact hk.take (edited_changeSetting _ _ _ _) hx
  · exact hk.take (.refl _) hx

end Host.Takes

theorem Host.Keeps.ai (hk : h.Keeps capture P) (args : List String) {x : σ} (hx : P x) :
    P (runAi h capture args x).2 := by
  unfold runAi
  dsimp only
  split
  · exact hk.write _ _ _ hx
  · next client _ =>
    split
    · exact hk.write _ _ _ hx
    · have hask (m : String) (x : σ) (hx : P x) : P ((h.partner client capture).ask m x).2 :=
        hk.send m x hx
      have hrun (line : Json) (x : σ) (hx : P x) : P ((h.partner client capture).run line x).2 :=
        hk.run line x hx
      have htalk := Chat.converse_requests hask (fun _ _ _ hw hx => hk.writeUnits hw hx)
        Chat.maxSteps (String.intercalate " " args) (fun line y _ => hrun line y) hx
      split
      · exact htalk
      · exact hk.write _ _ _ htalk
      · split
        · exact hk.write _ _ _ htalk
        · exact htalk
      · exact htalk

/-- Whatever a host keeps, it keeps while a builtin runs that asks no chat model. -/
theorem runFor_takes (hk : h.Takes P) {b : Builtin} (hb : b ≠ .ai) (args : List String) {x : σ}
    (hx : P x) : P (b.runFor h capture args x).2 := by
  cases b with
  | exit => exact hk.take (edited_exit _ _) hx
  | echo => exact hk.take (edited_echo _ _) hx
  | pwd => exact hk.take (.refl _) hx
  | cd => exact hk.take (edited_cd _ _) hx
  | type => exact hk.take (edited_type _ _) hx
  | history => exact hk.take (edited_history _ _) hx
  | config => exact hk.config args hx
  | log => exact hk.take (edited_log _ _) hx
  | ai => exact absurd rfl hb

/-- Whatever a host keeps, it keeps while a builtin runs. -/
theorem runFor_invariant (hk : h.Keeps capture P) (b : Builtin) (args : List String) {x : σ}
    (hx : P x) : P (b.runFor h capture args x).2 := by
  by_cases hb : b = .ai
  · subst hb
    exact hk.ai args hx
  · exact runFor_takes hk.toTakes hb args hx

/-- What a host keeps, it keeps when a builtin can take only so many more steps. -/
theorem Host.Keeps.limited (hk : h.Keeps capture P) : h.limited.Keeps capture fun x => P x.1 where
  write channel text x hx := by
    unfold Host.limited
    dsimp only
    split
    · exact hx
    · exact hk.write channel text x.1 hx
  setSession s x hs hx := by
    unfold Host.limited
    dsimp only
    split
    · exact hx
    · exact hk.setSession s x.1 hs hx
  send message x hx := by
    unfold Host.limited
    dsimp only
    split
    · exact hx
    · exact hk.send message x.1 hx
  run line x hx := by
    unfold Host.limited
    dsimp only
    split
    · exact hx
    · exact hk.run line x.1 hx

/-- Whatever a host keeps, it keeps while a builtin runs that an interrupt may stop. -/
theorem runUntil_invariant (hk : h.Keeps capture P) (b : Builtin) (args : List String)
    (stop : Option Nat) {x : σ} (hx : P x) : P (b.runUntil h capture args stop x).2 := by
  cases stop with
  | none => exact runFor_invariant hk b args hx
  | some n => exact runFor_invariant hk.limited b args (x := (x, n)) hx

end Hosts

end Builtin

end CommandShell
