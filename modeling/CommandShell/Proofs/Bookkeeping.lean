import CommandShell.Proofs.Builtin.Footprint
import CommandShell.Proofs.Calls
import CommandShell.Proofs.Help.Answer
import CommandShell.Proofs.HistoryFile

/-!
# What a session keeps account of

A session keeps account of the lines that are entered, in its history, and of the status of the last
one. A line is recorded before it is run, whatever comes of it, and its status is noted when it has
come to an end. Lines that a chat model has run are not entered, so neither is done for them.

## Main statements

- `Shell.accounts_capture`: a captured line leaves the accounts alone.
- `Shell.entries_execute`: a line that is executed is recorded once.
- `Shell.executeAll_accounts`: the accounts of a whole session.
-/

namespace CommandShell

/-- No builtin but `history` changes the entries of the history, and that one only if its arguments
say so. -/
theorem Builtin.entries_run (capture : Capture) {b : Builtin} (hb : b ≠ .ai) {args : List String}
    (hkeeps : b = .history → ¬ Rewrites args) (s : Session) :
    (b.run capture s args).session.history.entries = s.history.entries := by
  obtain ⟨cwd, history, log, screen, files, hs, -, hentries | ⟨hhistory, hrewrites⟩⟩ :=
    session_run capture hb s args
  · rw [hs]
    exact hentries
  · exact absurd hrewrites (hkeeps hhistory)

namespace Session

/-- A session with the accounts of another one. -/
structure SameAccounts (s s' : Session) : Prop where
  entries : s'.history.entries = s.history.entries
  lastStatus : s'.lastStatus = s.lastStatus

theorem frame_sameAccounts : Frame SameAccounts where
  upkeep s s' h := by
    obtain ⟨_, _, _, _, rfl⟩ := h
    exact ⟨rfl, rfl⟩
  trans _ _ _ h g := ⟨g.entries.trans h.entries, g.lastStatus.trans h.lastStatus⟩

theorem frame_lastStatus : Frame fun s s' => s'.lastStatus = s.lastStatus where
  upkeep s s' h := by
    obtain ⟨_, _, _, _, rfl⟩ := h
    rfl
  trans _ _ _ h g := g.trans h

end Session

namespace Shell

open Session (SameAccounts frame_sameAccounts frame_lastStatus)

/-- While a line is executed, a builtin is called with some arguments, by its stages or by lines
that a chat model has asked for. -/
def ExecuteCalls (s : Session) (line : String) (b : Builtin) (args : List String) : Prop :=
  asksForHelp (Text.strip line) = false ∧
    ∃ stages, Stage.parse (recorded s (Text.strip line)) (Text.strip line) = .ok stages ∧
      Calls maxDepth (recorded s (Text.strip line)) stages b args

theorem sameAccounts_reply (capture : Builtin.Capture) {b : Builtin} (hb : b ≠ .ai)
    {args : List String} (hkeeps : b = .history → ¬ Builtin.Rewrites args) (s : Session) :
    s.SameAccounts (b.run capture s args).session :=
  ⟨Builtin.entries_run capture hb hkeeps s, (Builtin.edited_run capture hb s args).lastStatus⟩

theorem sameAccounts_run {depth : Nat} {s : Session} {stages : List Stage}
    (hkeeps : ∀ args, Calls depth s stages .history args → ¬ Builtin.Rewrites args) :
    s.SameAccounts (Pipeline.run (capture depth) s stages).session := by
  refine within_run frame_sameAccounts (fun _ _ => ⟨rfl, rfl⟩) (fun _ _ => ⟨rfl, rfl⟩)
    depth s stages ?_
  intro b args hcalled hb capture t
  exact sameAccounts_reply capture hb (fun hhistory => hkeeps args (hhistory ▸ hcalled)) t

/-- A line that is captured is not entered: the status of the last line stays, and so does the
history unless it is asked to change. -/
theorem accounts_capture (depth : Nat) (line : Json) (s : Session) :
    (capture depth line s).2.lastStatus = s.lastStatus ∧
      ((∀ args, CapturedCalls depth s line .history args → ¬ Builtin.Rewrites args) →
        (capture depth line s).2.history.entries = s.history.entries) := by
  constructor
  · refine within_capture frame_lastStatus (fun _ _ => rfl) (fun _ _ => rfl) depth line s ?_
    intro b args _ hb capture t
    exact (Builtin.edited_run capture hb t args).lastStatus
  · intro hkeeps
    refine (within_capture frame_sameAccounts (fun _ _ => ⟨rfl, rfl⟩) (fun _ _ => ⟨rfl, rfl⟩) depth
      line s ?_).entries
    intro b args hcalled hb capture t
    exact sameAccounts_reply capture hb (fun hhistory => hkeeps args (hhistory ▸ hcalled)) t

/-- What lines add to the history: those that are not blank, without the blanks around them. -/
def entered (lines : List String) : List String := (lines.map Text.strip).filter (· ≠ "")

theorem entered_cons (line : String) (rest : List String) :
    entered (line :: rest) = entered [line] ++ entered rest := by
  rw [entered, List.map_cons, ← List.singleton_append, List.filter_append]
  rfl

theorem settle_fst (ran : Except Halt Int × Session) : (settle ran).1 = ran.1 := by
  obtain ⟨(_ | _ | _) | _, s⟩ := ran <;> rfl

theorem history_settle (ran : Except Halt Int × Session) :
    (settle ran).2.history = ran.2.history := by
  obtain ⟨(_ | _ | _) | _, s⟩ := ran <;> rfl

/-- A line that is executed is recorded once if it is not blank, whatever comes of it. -/
theorem entries_execute {s : Session} {line : String}
    (hkeeps : ∀ args, ExecuteCalls s line .history args → ¬ Builtin.Rewrites args) :
    (execute s line).2.history.entries = s.history.entries ++ entered [line] := by
  by_cases hblank : Text.strip line = ""
  · simp [execute, entered, hblank]
  have hentered : entered [line] = [Text.strip line] := by simp [entered, hblank]
  rw [hentered, execute_eq_ite s hblank]
  by_cases hhelp : asksForHelp (Text.strip line) = true
  · rw [if_pos hhelp]
    rfl
  rw [if_neg hhelp, history_settle]
  unfold runLine
  split
  · rfl
  · rfl
  · next stages _ hparse =>
    exact (sameAccounts_run fun args hcalled =>
      hkeeps args ⟨Bool.eq_false_iff.mpr hhelp, stages, hparse, hcalled⟩).entries

/-- The status of a line, and the status that the session notes of it. -/
structure Settles (s : Session) (line : String) : Prop where
  blank : Text.strip line = "" → execute s line = (.ok s.lastStatus, s)
  returned : ∀ status, (execute s line).1 = .ok status → (execute s line).2.lastStatus = status
  left : ∀ code, (execute s line).1 = .error (.exit code) → (execute s line).2.lastStatus = code
  help : Text.strip line ≠ "" → asksForHelp (Text.strip line) = true → (execute s line).1 = .ok 0
  refused : ∀ e, Text.strip line ≠ "" → asksForHelp (Text.strip line) = false →
    Stage.parse s (Text.strip line) = .error e → (execute s line).1 = .ok 2

theorem lastStatus_settle {ran : Except Halt Int × Session} :
    (∀ status, ran.1 = .ok status → (settle ran).2.lastStatus = status) ∧
      ∀ code, ran.1 = .error (.exit code) → (settle ran).2.lastStatus = code := by
  obtain ⟨(_ | _ | _) | _, s⟩ := ran <;> simp [settle]

/-- Every line settles, whatever comes of it. -/
theorem settles (s : Session) (line : String) : Settles s line := by
  by_cases hblank : Text.strip line = ""
  · have hran : execute s line = (.ok s.lastStatus, s) := by simp [execute, hblank]
    refine ⟨fun _ => hran, fun status h => ?_, fun code h => ?_, fun h => absurd hblank h,
      fun _ h => absurd hblank h⟩
    · rw [hran] at h ⊢
      exact Except.ok.inj h
    · rw [hran] at h
      cases h
  have hran := execute_eq_ite s hblank
  by_cases hhelp : asksForHelp (Text.strip line) = true
  · rw [if_pos hhelp] at hran
    refine ⟨fun h => absurd h hblank, fun status h => ?_, fun code h => ?_,
      fun _ _ => by rw [hran], fun e _ h => ?_⟩
    · rw [hran] at h ⊢
      exact Except.ok.inj h
    · rw [hran] at h
      cases h
    · exact absurd (hhelp.symm.trans h) (by simp)
  rw [if_neg hhelp] at hran
  refine ⟨fun h => absurd h hblank, fun status h => ?_, fun code h => ?_, fun _ h => absurd h hhelp,
    fun e _ _ hparse => ?_⟩
  · rw [hran] at h ⊢
    exact lastStatus_settle.1 status ((settle_fst _).symm.trans h)
  · rw [hran] at h ⊢
    exact lastStatus_settle.2 code ((settle_fst _).symm.trans h)
  · rw [hran, settle_fst, runLine, parse_recorded, hparse]

/-- The accounts of a session in which the history is not asked to change: every line that is not
blank has been recorded once, in order, whatever came of it. What a chat model has run leaves the
accounts alone, and the status of the last line is always the one that this has had. -/
theorem executeAll_accounts (s : Session) (lines : List String)
    (hkeeps : ∀ earlier line later args, lines = earlier ++ line :: later →
      ExecuteCalls (executeAll s earlier) line .history args → ¬ Builtin.Rewrites args) :
    (executeAll s lines).history.entries = s.history.entries ++ entered lines ∧
      (∀ depth line s', (capture depth line s').2.lastStatus = s'.lastStatus ∧
        ((∀ args, CapturedCalls depth s' line .history args → ¬ Builtin.Rewrites args) →
          (capture depth line s').2.history.entries = s'.history.entries)) ∧
      ∀ s' line, Settles s' line := by
  refine ⟨?_, accounts_capture, settles⟩
  induction lines generalizing s with
  | nil => simp [entered]
  | cons line rest ih =>
    have hfirst : (execute s line).2.history.entries = s.history.entries ++ entered [line] :=
      entries_execute fun args => hkeeps [] line rest args rfl
    have hrest := ih (execute s line).2 fun earlier line' later args hlines => by
      have hcalls := hkeeps (line :: earlier) line' later args (by rw [hlines, List.cons_append])
      rwa [executeAll_cons] at hcalls
    rw [executeAll_cons, hrest, hfirst, entered_cons line rest, List.append_assoc]

/-- A session in which the history is shown, but not changed, before it ends. -/
theorem executeAll_accounts_shown :
    let lines := [" help ", "", "history 1", "exit 3"]
    (∀ earlier line later args, lines = earlier ++ line :: later →
      ExecuteCalls (executeAll unfurnished earlier) line .history args → ¬ Builtin.Rewrites args) ∧
      (executeAll unfurnished lines).history.entries = ["help", "history 1", "exit 3"] ∧
      (executeAll unfurnished lines).lastStatus = 3 := by
  intro lines
  have hshow (s : Session) : Stage.parse s "history 1" =
      .ok [{ command := "history", args := ["1"], target := .builtin .history
             text := "history 1" }] := by
    have hwords : Redirection.extract (Word.tokenize "history 1") =
        .ok ([⟨"history", false⟩, ⟨"1", false⟩], {}) := by
      decide +kernel
    exact Stage.parse_builtin s (by decide +kernel) (by decide) hwords rfl
  have hexit (s : Session) : Stage.parse s "exit 3" =
      .ok [{ command := "exit", args := ["3"], target := .builtin .exit, text := "exit 3" }] := by
    have hwords : Redirection.extract (Word.tokenize "exit 3") =
        .ok ([⟨"exit", false⟩, ⟨"3", false⟩], {}) := by
      decide +kernel
    exact Stage.parse_builtin s (by decide +kernel) (by decide) hwords rfl
  have hblank (s : Session) : Stage.parse s "" = .ok [] := by
    have hsegments : Word.segments "" = [""] := by decide
    simp [Stage.parse, hsegments]
  have hkeeps : ∀ earlier line later args, lines = earlier ++ line :: later →
      ExecuteCalls (executeAll unfurnished earlier) line .history args →
        ¬ Builtin.Rewrites args := by
    rintro earlier line later args hlines ⟨hhelp, stages, hparse, hcalls⟩
    obtain ⟨stage, hstage, htarget⟩ := hcalls.mem
    have hmem : line ∈ lines := by rw [hlines]; simp
    rcases (by simpa [lines] using hmem : line = " help " ∨ line = "" ∨ line = "history 1" ∨
        line = "exit 3")
      with rfl | rfl | rfl | rfl
    · exact absurd hhelp (by decide)
    · rw [show Text.strip "" = "" by decide, hblank] at hparse
      cases hparse
      cases hstage
    · rw [show Text.strip "history 1" = "history 1" by decide, hshow] at hparse
      cases hparse
      obtain rfl := List.mem_singleton.mp hstage
      obtain hai | ⟨-, rfl⟩ := htarget
      · cases hai
      · simp [Builtin.Rewrites]
    · rw [show Text.strip "exit 3" = "exit 3" by decide, hexit] at hparse
      cases hparse
      obtain rfl := List.mem_singleton.mp hstage
      obtain hai | ⟨hhistory, -⟩ := htarget
      · cases hai
      · cases hhistory
  refine ⟨hkeeps, ?_, by decide +kernel⟩
  rw [(executeAll_accounts unfurnished lines hkeeps).1]
  decide

end Shell

end CommandShell
