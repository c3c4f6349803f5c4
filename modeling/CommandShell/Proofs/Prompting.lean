import CommandShell.Proofs.Prompting.Credit

/-!
# How often a line asks a chat model

The limit of a conversation is one of the prompt that started it, and not of the line that was
typed: a command that the model asks for may be a prompt in turn, whose conversation has the whole
limit again. A line therefore sends the model at most so many messages as there are prompts in it
and in the commands that the model asks for, times the limit.

## Main statements

- `Pipeline.spends_run`: the stages of a pipeline that ask the model spend the limit each.
- `Shell.captureSpends_capture`: so do the lines that are run for the model, at every depth.
- `Shell.execute_sends`: what the model is sent for a line.
-/

namespace CommandShell

open Session (Spends)

variable {c : Chat.Client}

namespace Pipeline

variable {capture : Builtin.Capture}

namespace Run

variable (r : Run)

/-- The builtin of a stage spends the limit if the stage asks the model, and nothing if it does
not. -/
theorem spends_runBuiltin (hc : Builtin.CaptureSpends c capture) (n i : Nat) (stage : Stage)
    {b : Builtin} (ht : stage.target = .builtin b) (hr : r.session.client = some c) :
    Spends c (n + if stage.isPrompt then Chat.maxSteps else 0) n r.session
      (r.runBuiltin capture i stage b).2.session := by
  have hprompt : (if stage.isPrompt then Chat.maxSteps else 0) = if b = .ai then Chat.maxSteps
      else 0 := by
    simp [Stage.isPrompt, ht]
  rw [hprompt]
  have hentered : Spends c (n + if b = .ai then Chat.maxSteps else 0)
      (n + if b = .ai then Chat.maxSteps else 0)
      r.session (r.entered i stage).session := .of_upkeep (r.upkeep_entered i stage)
  have hran : Spends c (n + if b = .ai then Chat.maxSteps else 0) n (r.entered i stage).session
      (b.runFor (host i) capture stage.args (r.entered i stage)).2.session :=
    Builtin.spends_runFor (upkeeps_host i) hc n b stage.args (x := r.entered i stage)
      (hentered.client.trans hr)
  exact hentered.trans (hran.trans (.of_upkeep (r.upkeep_runBuiltin capture i stage b)))

/-- The builtins of a pipeline spend the limit for each prompt among its stages. -/
theorem spends_runBuiltins (hc : Builtin.CaptureSpends c capture) (n : Nat)
    (indexed : List (Stage × Nat)) (hr : r.session.client = some c) :
    Spends c (n + Chat.maxSteps * (indexed.map Prod.fst).countP Stage.isPrompt) n r.session
      (runBuiltins capture indexed r).2.session := by
  induction indexed generalizing r with
  | nil => exact .refl _
  | cons stage rest ih =>
    -- what the first stage may spend, and what is kept for the others
    have hcount : n + Chat.maxSteps * ((stage :: rest).map Prod.fst).countP Stage.isPrompt =
        n + Chat.maxSteps * (rest.map Prod.fst).countP Stage.isPrompt +
          if stage.1.isPrompt then Chat.maxSteps else 0 := by
      rw [List.map_cons, List.countP_cons]
      split <;> simp [Nat.mul_add, Nat.add_assoc]
    have hfirst {b : Builtin} (ht : stage.1.target = .builtin b) :=
      r.spends_runBuiltin hc (n + Chat.maxSteps * (rest.map Prod.fst).countP Stage.isPrompt) stage.2
        stage.1 ht hr
    rw [hcount]
    generalize (if stage.1.isPrompt then Chat.maxSteps else 0) = own at hfirst
    unfold runBuiltins
    split
    · exact (ih r hr).more
    · next b ht =>
      replace hfirst := hfirst ht
      split
      · next r' hb =>
        rw [hb] at hfirst
        exact hfirst.trans (ih r' (hfirst.client.trans hr))
      · exact hfirst.less

end Run

variable {s : Session}

/-- The stages of a pipeline spend the limit for each prompt among them. -/
theorem spends_runWired (hc : Builtin.CaptureSpends c capture) (hs : s.client = some c) (n : Nat)
    (stages : List Stage) (wiring : Wiring) :
    Spends c (n + Chat.maxSteps * stages.countP Stage.isPrompt) n s
      (runWired capture s stages wiring).session := by
  rcases hspawn : Run.spawnAll stages.zipIdx (Run.init s stages wiring) with ⟨_ | halt, r⟩
  · have hbefore := upkeep_beforeBuiltins s stages wiring
    rw [hspawn] at hbefore
    have hstart : Spends c (n + Chat.maxSteps * stages.countP Stage.isPrompt) _ s r.session :=
      .of_upkeep hbefore
    have hran := r.spends_runBuiltins hc n stages.zipIdx (hstart.client.trans hs)
    rw [List.zipIdx_map_fst] at hran
    exact hstart.trans (hran.trans
      (.of_upkeep (upkeep_afterBuiltins capture s stages wiring hspawn)))
  · have hleft : Spends c n n s _ :=
      .of_upkeep (upkeep_runWired_halted capture s stages wiring hspawn)
    exact hleft.more

theorem spends_run (hc : Builtin.CaptureSpends c capture) (hs : s.client = some c) (n : Nat)
    (stages : List Stage) :
    Spends c (n + Chat.maxSteps * stages.countP Stage.isPrompt) n s
      (run capture s stages).session := by
  unfold run
  split
  · exact .more (.of_eq rfl rfl)
  · next last _ =>
    have hopened : Spends c (n + Chat.maxSteps * stages.countP Stage.isPrompt) _ s _ :=
      .of_upkeep (upkeep_openRedirections s last.redirections)
    split <;> next ho =>
      rw [ho] at hopened
      first
      | exact hopened.trans (spends_runWired hc (hopened.client.trans hs) n stages _)
      | exact hopened.less
      | exact (hopened.trans (.of_upkeep (.shown _ _))).less

end Pipeline

namespace Shell

variable {s : Session}

theorem spends_captureStages {capture : Builtin.Capture} (hc : Builtin.CaptureSpends c capture)
    (hs : s.client = some c) (n : Nat) (stages : List Stage) :
    Spends c (n + Chat.maxSteps * stages.countP Stage.isPrompt) n s
      (captureStages capture s stages).2 := by
  have hran := Pipeline.spends_run (s := { s with screen := [], direct := false }) hc hs n stages
  unfold captureStages
  dsimp only
  split <;> exact ⟨hran.client, hran.sent⟩

/-- A line that is run for the model spends the limit for each prompt in it. -/
theorem captureSpends_capture (c : Chat.Client) (depth : Nat) :
    Builtin.CaptureSpends c (capture depth) := by
  intro line s n hs
  induction depth generalizing line s n with
  | zero => exact .more (.of_eq rfl rfl)
  | succ depth ih =>
    unfold capture
    split
    · next units =>
      split
      · exact .more (.of_eq rfl rfl)
      · exact .more (.of_eq rfl rfl)
      · next stages _ hparse =>
        have hcount := Nat.mul_le_mul_left Chat.maxSteps (Stage.countP_of_parse hparse)
        exact (spends_captureStages ih hs n stages).mono (Nat.add_le_add_left hcount n)
          (Nat.le_refl n)
    · exact .more (.of_eq rfl rfl)

theorem spends_runLine (hs : s.client = some c) (n : Nat) (line : String) :
    Spends c (n + Chat.maxSteps * prompts line) n s (runLine s line).2 := by
  unfold runLine
  split
  · exact .more (.of_eq rfl rfl)
  · exact .more (.of_eq rfl rfl)
  · next stages _ hparse =>
    have hcount := Nat.mul_le_mul_left Chat.maxSteps (Stage.countP_of_parse hparse)
    have hran := Pipeline.spends_run (captureSpends_capture c maxDepth) hs n stages
    exact hran.mono (Nat.add_le_add_left hcount n) (Nat.le_refl n)

theorem spends_execute (hs : s.client = some c) (n : Nat) (line : String) :
    Spends c (n + Chat.maxSteps * prompts (Text.strip line)) n s (execute s line).2 := by
  have hran := spends_runLine (s := { s with history := s.history.append (Text.strip line) }) hs n
    (Text.strip line)
  replace hran : Spends c _ n s _ := ⟨hran.client, hran.sent⟩
  unfold execute
  extract_lets stripped recorded
  split
  · exact .more (.of_eq rfl rfl)
  · split
    · exact .more (.of_eq rfl rfl)
    · change Spends c _ n s (runLine recorded stripped).2 at hran
      generalize runLine recorded stripped = ran at hran
      rcases ran with ⟨(_ | _ | _) | _, s'⟩ <;> exact ⟨hran.client, hran.sent⟩

/-- For a line the chat model is sent at most so many messages as a conversation may take, times the
prompts in the line and in the commands that the model asks for. So a model that asks for no prompt
is sent no more than the prompts of the line itself allow. -/
theorem execute_sends (hs : s.client = some c) (line : String) :
    ∃ sent, (execute s line).2.messages = s.messages ++ sent ∧
      sent.length ≤ Chat.maxSteps * (prompts (Text.strip line) + c.prompted s.messages sent) ∧
      ((∀ messages, (c.answer messages).prompts = 0) →
        sent.length ≤ Chat.maxSteps * prompts (Text.strip line)) := by
  obtain ⟨sent, hsent, hcredit⟩ := (spends_execute hs 0 line).sent
  rw [Nat.add_zero, Nat.zero_add, ← Nat.mul_add] at hcredit
  refine ⟨sent, hsent, hcredit, fun hnone => ?_⟩
  rwa [Chat.Client.prompted_eq_zero hnone, Nat.add_zero] at hcredit

/-- A prompt whose model asks for another prompt with its first answer, and goes on thinking in both
conversations. -/
theorem execute_sends_prompted :
    let client : Chat.Client := .scripted [] [
      .step { kind := .action, tool := .str (.ofString "run_shell_command")
              input := .str (.ofString "ai x") },
      .step { kind := .think }]
    let s : Session :=
      { cwd := Path.ofParts [], world := {}, machine := ⟨fun _ _ _ => .error .notFound⟩,
        client := some client }
    s.client = some client ∧ prompts (Text.strip "ai q") = 1 ∧
      ∃ sent, (execute s "ai q").2.messages = s.messages ++ sent ∧ sent.length = 2 * Chat.maxSteps ∧
        sent.length ≤ Chat.maxSteps *
          (prompts (Text.strip "ai q") + client.prompted s.messages sent) := by
  intro client s
  have hrun : prompts (Text.strip "ai q") = 1 ∧
      (execute s "ai q").2.messages.length = 2 * Chat.maxSteps := by
    decide +kernel
  obtain ⟨sent, hsent, hbound, -⟩ := execute_sends (s := s) (c := client) rfl "ai q"
  refine ⟨rfl, hrun.1, sent, hsent, ?_, hbound⟩
  rw [← hrun.2, hsent, List.nil_append]

end Shell

end CommandShell
