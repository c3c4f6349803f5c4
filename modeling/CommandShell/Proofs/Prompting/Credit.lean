import CommandShell.Proofs.Builtin.Edits
import CommandShell.Proofs.Reading
import CommandShell.Proofs.Scope.Upkeep

/-!
# What a chat model is sent for a prompt

A conversation takes a limited number of answers. But an answer may ask for a command that is itself
a prompt, and the conversation that this starts has a limit of its own. So the messages that a model
is sent are paid for from a credit: a message takes one from it, and a prompt that the model asks
for adds the limit to it.

## Main statements

- `Stage.countP_of_parse`: the stages of a line that ask the model.
- `Builtin.spends_converse`: a conversation spends its limit.
- `Builtin.spends_runFor`: no builtin but `ai` spends anything.
-/

namespace CommandShell

namespace Stage

/-- Whether a stage asks the chat model. -/
def isPrompt (stage : Stage) : Bool := stage.target = .builtin .ai

end Stage

namespace Shell

/-- Whether the command of a segment asks the chat model. -/
def isPrompt (segment : String) : Bool :=
  match Redirection.extract (Word.tokenize segment) with
  | .ok (name :: _, _) => Builtin.ofName? name.text = some .ai
  | _ => false

/-- How many commands of a line ask the chat model. -/
def prompts (line : String) : Nat := (Word.segments line).countP isPrompt

/-- How many commands ask the chat model in a line that the model has asked for. -/
def promptsOf : Json → Nat
  | .str units => prompts units.text
  | _ => 0

end Shell

namespace Stage

variable {s : Session}

theorem isPrompt_of_ofSegment {segment : String} {stage : Stage}
    (h : ofSegment s segment = .ok stage) : stage.isPrompt = Shell.isPrompt segment := by
  unfold ofSegment at h
  split at h <;> cases h
  next hwords => simp [isPrompt, Shell.isPrompt, hwords, targetOf_eq_builtin]

theorem countP_of_ofSegments {segments : List String} {stages : List Stage}
    (h : ofSegments s segments = .ok stages) :
      stages.countP isPrompt = segments.countP Shell.isPrompt := by
  induction segments generalizing stages with
  | nil =>
    cases h
    rfl
  | cons segment rest ih =>
    unfold ofSegments at h
    split at h
    · cases h
    · next first hfirst =>
      obtain ⟨later, hlater, rfl⟩ := except_map_eq_ok.mp h
      rw [List.countP_cons, List.countP_cons, ih hlater, isPrompt_of_ofSegment hfirst]

/-- The stages of a line that ask the model are its prompts. -/
theorem countP_of_parse {line : String} {stages : List Stage} (h : parse s line = .ok stages) :
    stages.countP isPrompt ≤ Shell.prompts line := by
  unfold parse at h
  split at h
  · cases h
    exact Nat.zero_le _
  · split at h
    · cases h
    · exact Nat.le_of_eq (countP_of_ofSegments h)

end Stage

namespace Chat

/-- How many commands ask the chat model in the line that an answer asks for. -/
def Answer.prompts : Answer → Nat
  | .step s => if s.kind = .action && usesShell s then Shell.promptsOf (commandOf s) else 0
  | _ => 0

/-- How many prompts a client asks for in its answers to some messages, if it has been sent others
before. -/
def Client.prompted (c : Client) : List String → List String → Nat
  | _, [] => 0
  | before, message :: sent =>
    (c.answer (before ++ [message])).prompts + c.prompted (before ++ [message]) sent

theorem Client.prompted_append (c : Client) (before sent sent' : List String) :
    c.prompted before (sent ++ sent') = c.prompted before sent +
      c.prompted (before ++ sent) sent' := by
  induction sent generalizing before with
  | nil => simp [prompted]
  | cons message sent ih => simp [prompted, ih, Nat.add_assoc]

theorem Client.prompted_eq_zero {c : Client} (h : ∀ messages, (c.answer messages).prompts = 0)
    (before sent : List String) : c.prompted before sent = 0 := by
  induction sent generalizing before with
  | nil => rfl
  | cons message sent ih => rw [prompted, h, ih]

end Chat

namespace Session

variable {c : Chat.Client} {m n p : Nat} {s s' s'' : Session}

/-- A session that has come from another one while its client was sent messages: of a credit of `m`
messages there are `n` left, and each prompt that the client has asked for has added to it what a
conversation may take. -/
structure Spends (c : Chat.Client) (m n : Nat) (s s' : Session) : Prop where
  client : s'.client = s.client
  sent : ∃ sent, s'.messages = s.messages ++ sent ∧
    sent.length + n ≤ m + Chat.maxSteps * c.prompted s.messages sent

namespace Spends

/-- What sends no messages spends nothing. -/
theorem of_eq (hclient : s'.client = s.client) (hmessages : s'.messages = s.messages) :
    Spends c n n s s' := by
  refine ⟨hclient, [], by simp [hmessages], ?_⟩
  simp [Chat.Client.prompted]

theorem refl (s : Session) : Spends c n n s s := .of_eq rfl rfl

theorem of_upkeep (h : s.Upkeep s') : Spends c n n s s' := by
  obtain ⟨_, _, _, _, rfl⟩ := h
  exact .of_eq rfl rfl

theorem trans (h : Spends c m n s s') (g : Spends c n p s' s'') : Spends c m p s s'' := by
  obtain ⟨sent, hsent, hcredit⟩ := h.sent
  obtain ⟨sent', hsent', hcredit'⟩ := g.sent
  refine ⟨g.client.trans h.client, sent ++ sent', by rw [hsent', hsent, List.append_assoc], ?_⟩
  rw [hsent] at hcredit'
  rw [Chat.Client.prompted_append, List.length_append, Nat.mul_add]
  omega

/-- There may be more of the credit than is spent. -/
theorem mono (h : Spends c m n s s') {m' n' : Nat} (hm : m ≤ m') (hn : n' ≤ n) :
    Spends c m' n' s s' := by
  obtain ⟨sent, hsent, hcredit⟩ := h.sent
  exact ⟨h.client, sent, hsent, by omega⟩

theorem more (h : Spends c m n s s') : Spends c (m + p) n s s' :=
  h.mono (Nat.le_add_right m p) (Nat.le_refl n)

theorem less (h : Spends c m (n + p) s s') : Spends c m n s s' :=
  h.mono (Nat.le_refl m) (Nat.le_add_right n p)

/-- Sending a message takes one of the credit, and the answer may add to it. -/
theorem send (s : Session) (message : String) :
    Spends c (n + 1) (n + Chat.maxSteps * (c.answer (s.messages ++ [message])).prompts) s
      { s with messages := s.messages ++ [message] } := by
  refine ⟨rfl, [message], rfl, ?_⟩
  simp only [List.length_singleton, Chat.Client.prompted, Nat.add_zero]
  omega

end Spends

end Session

namespace Builtin

open Session (Spends)

/-- A way to run lines that spends what their prompts may take. -/
def CaptureSpends (c : Chat.Client) (capture : Capture) : Prop :=
  ∀ line (s : Session) n, s.client = some c →
    Spends c (n + Chat.maxSteps * Shell.promptsOf line) n s (capture line s).2

variable {σ : Type} {h : Host σ} {capture : Capture} {c : Chat.Client}

section Partner

variable (hh : h.Upkeeps) (n : Nat) {message : String} {x : σ}
include hh

theorem spends_ask {answer : Chat.Answer} {y : σ}
    (answered : (h.partner c capture).ask message x = (answer, y)) :
    Spends c (n + 1) (n + Chat.maxSteps * answer.prompts) (h.session x) (h.session y) := by
  cases answered
  simp only [hh.session_setSession]
  exact .send ..

/-- The answer has added to the credit what the line that it asks for may take. -/
theorem spends_asks {line : Json} {y : σ}
    (asked : Chat.Asks (h.partner c capture) message x line y) :
    Spends c (n + 1) (n + Chat.maxSteps * Shell.promptsOf line) (h.session x) (h.session y) := by
  obtain @⟨s, _, _, answered, kind, shell, told⟩ := asked
  have hprompts : (Chat.Answer.step s).prompts = Shell.promptsOf (Chat.commandOf s) := by
    simp [Chat.Answer.prompts, kind, shell]
  rw [← hprompts]
  exact (spends_ask hh n answered).trans (.of_upkeep (hh.writeUnits told))

variable (hc : CaptureSpends c capture) (hx : (h.session x).client = some c)
include hc hx

theorem spends_asks_run {line : Json} {result : Except Halt CodeUnits} {y z : σ}
    (asked : Chat.Asks (h.partner c capture) message x line y)
    (answered : (h.partner c capture).run line y = (result, z)) :
    Spends c (n + 1) n (h.session x) (h.session z) := by
  have hasked := spends_asks hh n asked
  cases answered
  simp only [hh.session_setSession]
  exact hasked.trans (hc line _ n (hasked.client.trans hx))

theorem spends_goesOn {message' : String} {x' : σ}
    (g : Chat.GoesOn (h.partner c capture) message x message' x') :
    Spends c (n + 1) n (h.session x) (h.session x') := by
  cases g with
  | thought answered _ told =>
    exact ((spends_ask hh n answered).trans (.of_upkeep (hh.writeUnits told))).less
  | ran asked answered => exact spends_asks_run hh n hc hx asked answered
  | unknown answered => exact (spends_ask hh n answered).less
  | unexpected answered => exact (spends_ask hh n answered).less

theorem spends_ends {talk : Chat.Transcript σ}
    (g : Chat.Ends (h.partner c capture) message x talk) :
    Spends c (n + 1) n (h.session x) (h.session talk.state) := by
  cases g with
  | fault answered => exact (spends_ask hh n answered).less
  | interrupt answered => exact (spends_ask hh n answered).less
  | output answered _ told =>
    exact ((spends_ask hh n answered).trans (.of_upkeep (hh.writeUnits told))).less
  | refused answered => exact (spends_ask hh n answered).less
  | stopped asked answered => exact spends_asks_run hh n hc hx asked answered

end Partner

/-- A conversation spends its limit, whatever the model answers. -/
theorem spends_converse (hh : h.Upkeeps) (hc : CaptureSpends c capture) (limit n : Nat)
    (message : String) {x : σ} (hx : (h.session x).client = some c) :
    Spends c (n + limit) n (h.session x)
      (h.session (Chat.converse (h.partner c capture) limit message x).state) := by
  induction limit generalizing message x with
  | zero => exact .refl _
  | succ limit ih =>
    have hturn := Chat.turns_converse (p := h.partner c capture) limit message x
    generalize Chat.converse (h.partner c capture) (limit + 1) message x = talk at hturn
    cases hturn with
    | next hnext =>
      have hspent := spends_goesOn hh (n + limit) hc hx hnext
      exact hspent.trans (ih _ (hspent.client.trans hx))
    | last hends => exact (spends_ends hh n hc hx hends).mono (by omega) (Nat.le_refl n)

/-- What the builtin that asks the model spends. -/
theorem spends_ai (hh : h.Upkeeps) (hc : CaptureSpends c capture) (n : Nat)
    (args : List String) {x : σ} (hx : (h.session x).client = some c) :
    Spends c (n + Chat.maxSteps) n (h.session x) (h.session (runAi h capture args x).2) := by
  have hfailed (message : String) {m : Nat} {y : σ}
      (hy : Spends c m n (h.session x) (h.session y)) :
      Spends c m n (h.session x) (h.session (h.write .err message y)) :=
    hy.trans (.of_upkeep (hh.write ..))
  have hrefused : Spends c (n + Chat.maxSteps) n (h.session x) (h.session x) := (Spends.refl _).more
  unfold runAi
  rw [hx]
  dsimp only
  split
  · exact hfailed _ hrefused
  · have htalk := spends_converse hh hc Chat.maxSteps n (String.intercalate " " args) hx
    split
    · exact htalk
    · exact hfailed _ htalk
    · split
      · exact hfailed _ htalk
      · exact htalk
    · exact htalk

/-- What a builtin spends: nothing, unless it asks the model. -/
theorem spends_runFor (hh : h.Upkeeps) (hc : CaptureSpends c capture) (n : Nat) (b : Builtin)
    (args : List String) {x : σ} (hx : (h.session x).client = some c) :
    Spends c (n + if b = .ai then Chat.maxSteps else 0) n (h.session x)
      (h.session (b.runFor h capture args x).2) := by
  split
  · next hb =>
    subst hb
    exact spends_ai hh hc n args hx
  · next hb =>
    have hk : h.Takes fun y => Spends c n n (h.session x) (h.session y) := {
      write := fun _ _ _ hy => hy.trans (.of_upkeep (hh.write ..))
      setSession := fun s y hs hy =>
        hy.trans ((hh.session_setSession s y).symm ▸ .of_eq hs.client hs.messages) }
    exact runFor_takes hk hb args (.refl _)

end Builtin

end CommandShell
