import CommandShell.Proofs.Builtin.Edits
import CommandShell.Proofs.FileSystem.Storage

/-!
# How builtins halt

A builtin reports its failures itself and ends with a status. Only `exit` asks the shell to stop,
and a conversation does so only by way of a line that its chat model has run. What `cd` passes on is
what a question about its directory fails with.

## Main statements

- `Builtin.exit_of_runFor`: the builtin that asks the shell to stop.
- `Builtin.converse_halts`: what halts a conversation.
- `Builtin.fault_runCd_iff`: what keeps `cd` from ending with a status.
-/

namespace CommandShell

theorem except_map_eq_error {ε α β : Type} {f : α → β} {x : Except ε α} {e : ε}
    (h : x.map f = .error e) : x = .error e := by
  cases x with
  | error e' => simpa [Except.map] using h
  | ok a => cases h

/-- A question about a path fails for what the path is, whatever is asked. -/
theorem World.test_eq_error_iff {w : World} {p : Path} {f : Fault} (q q' : Node → Bool) :
    w.test p q = .error f ↔ w.test p q' = .error f := by
  unfold test FileSystem.test
  cases Path.hasNull p.text
  · rcases w.files.stat w.directory p with e | ⟨place, node⟩
    · cases FileSystem.isAbsence e <;> simp
    · simp
  · simp

namespace Builtin

section Replies

/-- The directory that `cd` is asked for: the home directory unless the arguments name another
one. -/
def destination (s : Session) (args : List String) : Option Path :=
  let target := String.intercalate " " args
  if target = "" || target = "~" then s.home else some (s.resolvePath target)

variable {s : Session} {args : List String} {code : Int} {path : Path}

theorem runCd_of_none (h : destination s args = none) :
    runCd s args = failure s "cd: HOME not set" := by
  unfold destination at h
  unfold runCd
  extract_lets at h ⊢
  split at h
  · next hhome => rw [if_pos hhome, h]
  · cases h

theorem runCd_of_some (h : destination s args = some path) :
    runCd s args = enter s (String.intercalate " " args) path := by
  unfold destination at h
  unfold runCd
  extract_lets at h ⊢
  split at h
  · next hhome => rw [if_pos hhome, h]
  · next hnamed =>
    cases h
    rw [if_neg hnamed]

theorem destination_cases (h : destination s args = some path) :
    s.home = some path ∨ ∃ target, path = s.resolvePath target := by
  unfold destination at h
  extract_lets target at h
  split at h
  · exact .inl h
  · exact .inr ⟨target, (Option.some.inj h).symm⟩

/-- The directory at a path cannot be entered with a status if the system does not answer the
question whether something is there, or if it shows a way back to a link in place of the
directory. -/
theorem fault_enter_iff {target : String} {path : Path} {f : Fault} :
    (enter s target path).ending = .error (.fault f) ↔
      s.world.exists? path = .error f ∨ s.world.isDir path = .ok true ∧
        s.world.resolve path = .error f := by
  have hexists :=
    World.test_eq_error_iff (w := s.world) (p := path) (f := f) (fun _ => true) FileSystem.isDirNode
  have hthere : s.world.isDir path = .ok true → s.world.exists? path = .ok true := by
    unfold World.isDir World.exists? World.test FileSystem.test
    cases Path.hasNull path.text
    · rcases s.world.files.stat s.world.directory path with e | ⟨place, node⟩
      · cases FileSystem.isAbsence e <;> simp
      · simp
    · simp
  change s.world.exists? path = .error f ↔ s.world.isDir path = .error f at hexists
  unfold enter
  rcases he : s.world.exists? path with g | _ | _
  · have hnot : s.world.isDir path ≠ .ok true := fun hdir => by cases he.symm.trans (hthere hdir)
    simp [faulty, hnot]
  · have hnot : s.world.isDir path ≠ .ok true := fun hdir => by cases he.symm.trans (hthere hdir)
    simp [failure, hnot]
  · rcases hd : s.world.isDir path with g | _ | _
    · have hnone : s.world.isDir path ≠ .error f := fun h => by cases he.symm.trans (hexists.mpr h)
      have hne : g ≠ f := by
        rintro rfl
        exact hnone hd
      simpa [faulty] using hne
    · simp [failure]
    · rcases s.world.resolve path with g | real <;> simp [faulty, success]

theorem destination_congr {s' : Session} (henv : s'.environment = s.environment)
    (hcwd : s'.cwd = s.cwd) (args : List String) : destination s' args = destination s args := by
  simp only [destination, Session.home, Session.resolvePath, Session.expandHome, henv, hcwd]

/-- What keeps `cd` from ending with a status. -/
theorem fault_runCd_iff {f : Fault} :
    (runCd s args).ending = .error (.fault f) ↔ ∃ path, destination s args = some path ∧
      (s.world.exists? path = .error f ∨
        s.world.isDir path = .ok true ∧ s.world.resolve path = .error f) := by
  cases hpath : destination s args with
  | none => simp [runCd_of_none hpath, failure]
  | some path => simp [runCd_of_some hpath, fault_enter_iff]

theorem enter_ne_exit (s : Session) (target : String) (path : Path) (code : Int) :
    (enter s target path).ending ≠ .error (.exit code) := by
  unfold enter
  split
  · simp [faulty]
  · simp [failure]
  · split
    · simp [faulty]
    · simp [failure]
    · split <;> simp [faulty, success]

theorem cd_ne_exit (s : Session) (args : List String) (code : Int) :
    (runCd s args).ending ≠ .error (.exit code) := by
  cases hpath : destination s args with
  | none => simp [runCd_of_none hpath, failure]
  | some path =>
    rw [runCd_of_some hpath]
    exact enter_ne_exit _ _ _ code

theorem history_ne_exit (s : Session) (args : List String) (code : Int) :
    (runHistory s args).ending ≠ .error (.exit code) := by
  unfold runHistory
  split
  · simp [success]
  · simp [success]
  · split
    · split
      · simp [failure]
      · split <;> simp [success, failure, faulty]
    · split <;> simp [success, failure]

theorem changeSetting_ne_exit (s : Session) (file : Path) (key value : String) (code : Int) :
    (changeSetting s file key value).ending ≠ .error (.exit code) := by
  unfold changeSetting
  extract_lets unknown
  split
  · simp [failure]
  · split <;> simp [success, failure, faulty]

theorem log_ne_exit (s : Session) (args : List String) (code : Int) :
    (runLog s args).ending ≠ .error (.exit code) := by
  unfold runLog
  dsimp only
  split
  · split <;> simp [success]
  · simp [success]
  · split
    · split <;> simp [success]
    · simp [failure]
  · simp [failure]

end Replies

section Hosts

variable {σ : Type} {h : Host σ} {capture : Capture} {args : List String} {x : σ} {halt : Halt}

theorem writeLines_ne_exit (h : Host σ) (channel : Channel) (lines : List CodeUnits) (x : σ)
    (code : Int) : (h.writeLines channel lines x).1 ≠ .error (.exit code) := by
  induction lines generalizing x with
  | nil => simp [Host.writeLines]
  | cons line rest ih =>
    unfold Host.writeLines
    split
    · exact ih _
    · simp

theorem config_ne_exit (h : Host σ) (args : List String) (x : σ) (code : Int) :
    (runConfig h args x).1 ≠ .error (.exit code) := by
  unfold runConfig
  dsimp only
  split
  · simp [Host.take, failure]
  · exact writeLines_ne_exit _ _ _ _ code
  · split <;> simp [Host.take, failure, success]
  · exact changeSetting_ne_exit _ _ _ _ code
  · simp [Host.take, failure]

variable {P : σ → Prop} {E : Halt → Prop}

/-- What halts a conversation: an answer of the model, a line that is run, or a text that cannot be
written. -/
theorem converse_halts {p : Chat.Partner σ} (hask : ∀ m x, P x → P (p.ask m x).2)
    (hrun : ∀ line x, P x → P (p.run line x).2)
    (hwrite : ∀ units x y, p.write units x = .ok y → P x → P y)
    (hinterrupt : ∀ m x, P x → (p.ask m x).1 = .interrupt → E .interrupt)
    (hfault : ∀ m x f, P x → (p.ask m x).1 = .fault f → E (.fault f))
    (hran : ∀ m x step y halt, P x → (p.ask m x).1 = .step step → P y →
      (p.run (Chat.commandOf step) y).1 = .error halt → E halt)
    (hrefused : ∀ units x f, P x → p.write units x = .error f → E (.fault f)) (n : Nat)
    (message : String) (hx : P x) (h : (Chat.converse p n message x).ending = .error halt) :
    E halt := by
  induction n generalizing message x with
  | zero => cases h
  | succ n ih =>
    have hturn := Chat.turns_converse (p := p) n message x
    generalize Chat.converse p (n + 1) message x = talk at hturn h
    cases hturn with
    | next hnext => exact ih _ (hnext.keeps hask hwrite (fun line y _ => hrun line y) hx) h
    | last hends =>
      cases hends with
      | fault answered =>
        cases h
        exact hfault message x _ hx (by rw [answered])
      | interrupt answered =>
        cases h
        exact hinterrupt message x hx (by rw [answered])
      | output => cases h
      | refused answered _ told =>
        cases h
        exact hrefused _ _ _ (Chat.keeps_ask hask answered hx) told
      | stopped asked answered =>
        cases h
        have hy := asked.keeps hask hwrite hx
        obtain ⟨hstep, -, -, -⟩ := asked
        exact hran message x _ _ _ hx (by rw [hstep]) hy (by rw [answered])

/-- A conversation does not ask the shell to stop if the lines that its model has run do not. -/
theorem ai_ne_exit (h : Host σ) (hc : ∀ line s code, (capture line s).1 ≠ .error (.exit code))
    (args : List String) (x : σ) (code : Int) :
    (Builtin.ai.runFor h capture args x).1 ≠ .error (.exit code) := by
  have htalk (p : Chat.Partner σ)
      (hrun : ∀ line x, (p.run line x).1 ≠ .error (.exit code)) (n : Nat)
      (message : String) : (Chat.converse p n message x).ending ≠ .error (.exit code) := by
    intro hended
    refine converse_halts (P := fun _ => True) (E := (· ≠ .exit code)) (p := p)
      (fun _ _ _ => trivial)
      (fun _ _ _ => trivial) (fun _ _ _ _ _ => trivial) (fun _ _ _ _ => by simp)
        (fun _ _ _ _ _ => by simp)
      (fun _ _ step y halt _ _ _ hr => ?_) (fun _ _ _ _ _ => by simp) n message trivial hended rfl
    rintro rfl
    exact hrun _ y hr
  intro hended
  unfold runFor runAi at hended
  dsimp only at hended
  split at hended
  · cases hended
  · next client _ =>
    split at hended
    · cases hended
    · have hran := htalk (h.partner client capture)
        (fun line y hr => hc line (h.session y) code (except_map_eq_error hr)) Chat.maxSteps
        (String.intercalate " " args)
      split at hended
      · cases hended
      · cases hended
      · split at hended <;> cases hended
      · next halt _ hhalt =>
        cases hended
        exact hran hhalt

/-- Only `exit` asks the shell to stop, as long as lines that are run for a chat model do not. -/
theorem exit_of_runFor (hc : ∀ line s code, (capture line s).1 ≠ .error (.exit code)) {b : Builtin}
    {code : Int} (hr : (b.runFor h capture args x).1 = .error (.exit code)) : b = .exit := by
  cases b with
  | exit => rfl
  | echo =>
    unfold runFor runEcho Host.take at hr
    dsimp only at hr
    split at hr <;> cases hr
  | pwd => cases hr
  | cd => exact absurd hr (cd_ne_exit _ args code)
  | type =>
    unfold runFor runType Host.take at hr
    dsimp only at hr
    split at hr <;> cases hr
  | history => exact absurd hr (history_ne_exit _ args code)
  | config => exact absurd hr (config_ne_exit h args x code)
  | log => exact absurd hr (log_ne_exit _ args code)
  | ai => exact absurd hr (ai_ne_exit h hc args x code)

end Hosts

end Builtin

end CommandShell
