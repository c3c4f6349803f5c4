import CommandShell.Proofs.Conversing
import CommandShell.Proofs.Json.Values

/-!
# The protocol of a conversation

A conversation is watched: every message that is sent with its answer, every line that is written
and every command that is run with its result goes into a log. Whatever the surroundings do, the log
follows the protocol. The model is asked until it gives its output or the number of answers is used
up, each message reports what came of the answer before it, and for each answer the lines are
written and the command is run that belong to it.

The protocol is told by the tool, the input and the content of the steps alone: what is run for a
step, what is written and which message is sent are spelled out here, apart from the conversation.

## Main definitions

* `Chat.Partner.watched`: surroundings that keep a log.
* `Chat.Step.request`, `Chat.Step.shown`, `Chat.report`: what belongs to a step.
* `Chat.span`: how many answers a conversation takes out of a sequence of them.
* `Chat.Follows`: a log follows the protocol.

## Main statements

* `Chat.Follows.round`: a log follows the protocol if what comes after its first step does.
* `Chat.converse_follows`: the log of a conversation follows the protocol.
-/

namespace CommandShell

namespace Chat

variable {σ : Type} {p : Partner σ}

/-! ## Logs -/

/-- What happens in a conversation. -/
inductive Event where
  | answered (message : String) (answer : Answer)
  | wrote (line : CodeUnits)
  | ran (command : Json) (result : Except Halt CodeUnits)

namespace Event

@[simp] def message? : Event → Option String
  | answered message _ => some message
  | wrote _ | ran _ _ => none

@[simp] def answer? : Event → Option Answer
  | answered _ answer => some answer
  | wrote _ | ran _ _ => none

@[simp] def line? : Event → Option CodeUnits
  | wrote line => some line
  | answered _ _ | ran _ _ => none

@[simp] def command? : Event → Option Json
  | ran command _ => some command
  | answered _ _ | wrote _ => none

@[simp] def result? : Event → Option CodeUnits
  | ran _ (.ok text) => some text
  | ran _ (.error _) | answered _ _ | wrote _ => none

/-- What the model or a command raises. -/
@[simp] def raised? : Event → Option Halt
  | answered _ (.fault f) => some (.fault f)
  | answered _ .interrupt => some .interrupt
  | ran _ (.error halt) => some halt
  | answered _ (.step _) | ran _ (.ok _) | wrote _ => none

end Event

@[simp] def Answer.step? : Answer → Option Step
  | .step s => some s
  | .interrupt | .fault _ => none

/-- The model gives its output. -/
def Answer.isOutput (answer : Answer) : Bool := answer.step?.any fun s => s.kind = .output

def messages (log : List Event) : List String := log.filterMap Event.message?

def answers (log : List Event) : List Answer := log.filterMap Event.answer?

def steps (log : List Event) : List Step := (answers log).filterMap Answer.step?

def lines (log : List Event) : List CodeUnits := log.filterMap Event.line?

def commands (log : List Event) : List Json := log.filterMap Event.command?

def results (log : List Event) : List CodeUnits := log.filterMap Event.result?

@[simp] theorem messages_append (log log' : List Event) :
    messages (log ++ log') = messages log ++ messages log' :=
  List.filterMap_append

@[simp] theorem answers_append (log log' : List Event) :
    answers (log ++ log') = answers log ++ answers log' :=
  List.filterMap_append

@[simp] theorem steps_append (log log' : List Event) :
    steps (log ++ log') = steps log ++ steps log' := by
  simp [steps]

@[simp] theorem lines_append (log log' : List Event) :
    lines (log ++ log') = lines log ++ lines log' :=
  List.filterMap_append

@[simp] theorem commands_append (log log' : List Event) :
    commands (log ++ log') = commands log ++ commands log' :=
  List.filterMap_append

@[simp] theorem results_append (log log' : List Event) :
    results (log ++ log') = results log ++ results log' :=
  List.filterMap_append

/-- Surroundings that keep a log. -/
def Partner.watched (p : Partner σ) : Partner (σ × List Event) where
  ask message x :=
    let asked := p.ask message x.1
    (asked.1, asked.2, x.2 ++ [.answered message asked.1])
  run command x :=
    let ran := p.run command x.1
    (ran.1, ran.2, x.2 ++ [.ran command ran.1])
  -- a line that is refused gives no state, so that it leaves no event
  write line x := (p.write line x.1).map fun y => (y, x.2 ++ [.wrote line])

/-- A conversation goes the same way if it is watched. -/
theorem converse_watched (n : Nat) (message : String) (x : σ × List Event) :
    converse p n message x.1 =
      ⟨(converse p.watched n message x).state.1, (converse p.watched n message x).ending⟩ := by
  have hwrite (line : CodeUnits) (x : σ × List Event) :
      p.write line x.1 = (p.watched.write line x).map Prod.fst := by
    cases hw : p.write line x.1 <;> simp [Partner.watched, hw, Except.map]
  exact converse_map (p := p.watched) (P := fun _ => True) (f := Prod.fst) (fun _ _ _ => rfl)
    (fun _ _ _ => rfl) hwrite
    (fun _ _ _ => trivial) (fun _ _ _ => trivial) (fun _ _ _ _ _ => trivial) n message trivial

/-! ## What belongs to a step -/

namespace Step

/-- The step is an action for the shell. -/
def asksShell (s : Step) : Bool :=
  match s.kind, s.tool with
  | .action, .str name => name = .ofString "run_shell_command"
  | _, _ => false

/-- What is to be run for a step: its input, or the empty text if it is nothing, false or zero, or
has nothing in it. -/
def request (s : Step) : Json :=
  match s.input with
  | .null | .bool false | .int 0 | .float (.finite _ 0 _) | .str [] | .arr [] | .obj [] => .str []
  | input => input

/-- The commands that are run for a step. -/
def commands (s : Step) : List Json := if s.asksShell then [s.request] else []

/-- The lines that are written for a step. -/
def shown (s : Step) : List CodeUnits :=
  match s.kind with
  | .think => [.ofString "thinking: " ++ s.content ++ .ofString "\n"]
  | .action =>
    if s.asksShell then [.ofString "running: " ++ s.input.display ++ .ofString "\n"] else []
  | .output => [s.content ++ .ofString "\n"]
  | .observe => []

/-- What is observed after a step that is no output, if this is the result of the command that is
run for it. -/
def reply (s : Step) (result : CodeUnits) : CodeUnits :=
  match s.kind with
  | .output => []
  | .think => .ofString "continue"
  | .action => if s.asksShell then result else .ofString "unknown tool: " ++ s.tool.display
  | .observe => .ofString "unexpected step"

end Step

/-- The message that reports what has been observed. -/
def report (content : CodeUnits) : String :=
  "\x7b\"step\": \"observe\", \"content\": " ++ Json.renderString content ++ "\x7d"

/-- The object of a report. -/
def reported (content : CodeUnits) : Json :=
  .obj [(.ofString "step", .str (.ofString "observe")), (.ofString "content", .str content)]

theorem render_reported (content : CodeUnits) : (reported content).render = report content := by
  have hobserve : Json.renderString (.ofString "observe") = "\"observe\"" := by decide
  have hstep : Json.renderString (.ofString "step") = "\"step\"" := by decide
  have hcontent : Json.renderString (.ofString "content") = "\"content\"" := by decide
  have hhead : "\x7b" ++ ("\"step\"" ++ (": " ++ ("\"observe\"" ++ (", " ++
      ("\"content\"" ++ ": "))))) = "\x7b\"step\": \"observe\", \"content\": " := by decide
  rw [reported, Json.render, Json.renderPairs, Json.renderPairs, Json.render, Json.render,
    hobserve, hstep, hcontent]
  case x_1 => exact List.cons_ne_nil _ _
  unfold report
  generalize Json.renderString content = text
  rw [← hhead]
  simp only [String.append_assoc]

/-- A report is read as the object of its content. -/
theorem parse_report (content : CodeUnits) :
    Json.parse (report content) = .ok (reported content) := by
  have hkeys : (["step", "content"].map CodeUnits.ofString).Nodup := by decide
  rw [← render_reported]
  refine Json.parse_render (.obj (by simpa using hkeys) ?_) (.obj ?_)
  · simpa using ⟨.str _, .str _⟩
  · simpa using ⟨.str _, .str _⟩

/-! ## The protocol -/

/-- How many answers a conversation takes out of a sequence of them: those up to the first output,
if it is among the first `n`, and otherwise `n`. -/
def span (n : Nat) (answers : List Answer) : Nat :=
  match (answers.take n).findIdx? Answer.isOutput with
  | some i => i + 1
  | none => n

/-- What is observed after each of some steps, if these are the results of the commands that are run
for them. -/
def observed : List Step → List CodeUnits → List CodeUnits
  | [], _ => []
  | s :: steps, results =>
    if s.asksShell then
      match results with
      | [] => []
      | result :: results => s.reply result :: observed steps results
    else s.reply [] :: observed steps results

/-- A conversation ends in a state because the line is refused there that is to be written next. -/
def Refused (p : Partner σ) (x : σ) (log : List Event) (ending : Except Halt Bool) : Prop :=
  ∃ line f, p.write line x = .error f ∧ (steps log).flatMap Step.shown = lines log ++ [line] ∧
    ending = .error (.fault f)

/-- The log of a conversation that may take `n` answers, begins with a message and ends in a state
follows the protocol. -/
structure Follows (p : Partner σ) (n : Nat) (message : String) (x : σ) (log : List Event)
    (ending : Except Halt Bool) : Prop where
  /-- After the first one each message is an observation, which reports what came of the answer
  before it. -/
  sent : messages log <+: message :: (observed (steps log) (results log)).map report
  /-- Whatever else the model would have answered, it is asked for as many answers as there are up
  to its output. -/
  calls : ∀ sequence, answers log <+: sequence → (answers log).length ≤ span n sequence ∧
    ((answers log).length < span n sequence → ∃ halt, ending = .error halt)
  ran : commands log <+: (steps log).flatMap Step.commands
  written : lines log <+: (steps log).flatMap Step.shown
  /-- Nothing is left out unless a line is refused. -/
  complete : commands log = (steps log).flatMap Step.commands ∧
    lines log = (steps log).flatMap Step.shown ∨ Refused p x log ending
  result : ∀ b, ending = .ok b → (b = true ↔ ∃ s ∈ steps log, s.kind = .output)
  /-- What the model or a command raises ends the conversation. -/
  raised : ∀ event ∈ log, ∀ halt, event.raised? = some halt → ending = .error halt
  cause : ∀ halt, ending = .error halt → (∃ event ∈ log, event.raised? = some halt) ∨
    Refused p x log ending

@[simp] theorem span_zero (sequence : List Answer) : span 0 sequence = 0 := rfl

theorem span_cons (n : Nat) (answer : Answer) (sequence : List Answer) :
    span (n + 1) (answer :: sequence) = if answer.isOutput then 1 else span n sequence + 1 := by
  unfold span
  rw [List.take_succ_cons, List.findIdx?_cons]
  cases answer.isOutput
  · cases (sequence.take n).findIdx? Answer.isOutput <;> simp
  · simp

example : span 3 [.step { kind := .think }, .step { kind := .output }, .step { kind := .think }] =
    2 := by decide

/-! ## What the conversation does for a step -/

section Conforms

variable {s : Step}

theorem Step.asksShell_of_not_action (h : s.kind ≠ .action) : s.asksShell = false := by
  cases hkind : s.kind <;> simp_all [Step.asksShell]

theorem usesShell_of_action (h : s.kind = .action) : usesShell s = s.asksShell := by
  rw [usesShell, Step.asksShell, h]
  cases s.tool <;> rfl

/-- The values that count as empty. -/
theorem isEmpty_eq_true_iff {v : Json} : v.isEmpty = true ↔
    v = .null ∨ v = .bool false ∨ v = .int 0 ∨ (∃ n e, v = .float (.finite n 0 e)) ∨
      v = .str [] ∨ v = .arr [] ∨ v = .obj [] := by
  cases v with
  | float x => cases x <;> simp [Json.isEmpty, Binary64.isZero]
  | _ => simp [Json.isEmpty]

theorem commandOf_eq_request (s : Step) : commandOf s = s.request := by
  unfold commandOf
  split
  · next hempty =>
    obtain h | h | h | ⟨n, e, h⟩ | h | h | h := isEmpty_eq_true_iff.mp hempty <;>
      simp [Step.request, h]
  · next hfull =>
    unfold Step.request
    split <;> simp_all [isEmpty_eq_true_iff]

theorem lines_eq_shown (s : Step) : s.lines = s.shown := by
  cases hkind : s.kind with
  | action => simp [Step.lines, Step.shown, hkind, lineOf, usesShell_of_action hkind]
  | _ => simp [Step.lines, Step.shown, hkind, lineOf, CodeUnits.ofString]

theorem observation_eq_report (content : CodeUnits) :
    Step.observation content = report content := render_reported content

end Conforms

/-! ## One answer -/

variable {n : Nat} {message : String} {x y : σ × List Event}

theorem log_of_ask {answer : Answer} (h : p.watched.ask message x = (answer, y)) :
    y.2 = x.2 ++ [.answered message answer] := by
  cases h
  rfl

theorem log_of_run {command : Json} {result : Except Halt CodeUnits}
    (h : p.watched.run command x = (result, y)) : y.2 = x.2 ++ [.ran command result] := by
  cases h
  rfl

theorem log_of_write {line : CodeUnits} (h : p.watched.write line x = .ok y) :
    y.2 = x.2 ++ [.wrote line] := by
  unfold Partner.watched at h
  cases hw : p.write line x.1 <;> simp only [hw, Except.map] at h <;> cases h
  rfl

theorem refused_of_write {line : CodeUnits} {f : Fault} (h : p.watched.write line x = .error f) :
    p.write line x.1 = .error f := by
  unfold Partner.watched at h
  cases hw : p.write line x.1 <;> simp only [hw, Except.map] at h <;> cases h
  rfl

theorem Asks.log {command : Json} (h : Asks p.watched message x command y) :
    ∃ s : Step, s.kind = .action ∧ s.asksShell = true ∧ command = s.request ∧
      y.2 = x.2 ++ .answered message (.step s) :: s.shown.map .wrote := by
  obtain @⟨s, _, _, answered, kind, shell, told⟩ := h
  refine ⟨s, kind, usesShell_of_action kind ▸ shell, commandOf_eq_request s, ?_⟩
  rw [log_of_write told, log_of_ask answered, List.append_assoc, ← lines_eq_shown]
  simp [Step.lines, kind, shell]

/-- What happens with a step after which a conversation goes on, if this is the result of the
command that it asks for. -/
def Step.events (s : Step) (message : String) (result : CodeUnits) : List Event :=
  .answered message (.step s) :: (s.shown.map .wrote ++ s.commands.map fun command =>
    .ran command (.ok result))

section Events

variable (s : Step) (message : String) (result : CodeUnits)

theorem messages_events : messages (s.events message result) = [message] := by
  simp [messages, Step.events]

theorem answers_events : answers (s.events message result) = [.step s] := by
  simp [answers, Step.events]

theorem lines_events : lines (s.events message result) = s.shown := by
  simp [lines, Step.events, List.filterMap_cons, Function.comp_def]

theorem commands_events : commands (s.events message result) = s.commands := by
  simp [commands, Step.events, List.filterMap_cons, Function.comp_def]

theorem results_events :
    results (s.events message result) = if s.asksShell then [result] else [] := by
  unfold Step.events Step.commands
  split <;> simp [results, List.filterMap_cons]

theorem raised_events (event : Event) (h : event ∈ s.events message result) :
    event.raised? = none := by
  simp only [Step.events, List.mem_cons, List.mem_append, List.mem_map] at h
  obtain rfl | ⟨_, _, rfl⟩ | ⟨_, _, rfl⟩ := h <;> rfl

end Events

/-- A conversation that goes on does so with what is observed after a step that is no output. -/
theorem GoesOn.log {message' : String} (h : GoesOn p.watched message x message' y) :
    ∃ (s : Step) (result : CodeUnits), s.kind ≠ .output ∧ message' = report (s.reply result) ∧
      y.2 = x.2 ++ s.events message result := by
  cases h with
  | @thought s _ _ answered kind told =>
    have hquiet : s.asksShell = false := Step.asksShell_of_not_action (by simp [kind])
    refine ⟨s, [], by simp [kind], ?_, ?_⟩
    · simp [observation_eq_report, Step.reply, kind]
    · rw [log_of_write told, log_of_ask answered, List.append_assoc]
      simp [Step.events, ← lines_eq_shown, Step.lines, Step.commands, hquiet, kind]
  | @ran command text z _ asked answered =>
    obtain ⟨s, kind, shell, rfl, hlog⟩ := asked.log
    refine ⟨s, text, by simp [kind], ?_, ?_⟩
    · simp [observation_eq_report, Step.reply, kind, shell]
    · rw [log_of_run answered, hlog, List.append_assoc]
      simp [Step.events, Step.commands, shell]
  | @unknown s _ answered kind other =>
    have hquiet : s.asksShell = false := usesShell_of_action kind ▸ other
    refine ⟨s, [], by simp [kind], ?_, ?_⟩
    · simp [observation_eq_report, Step.reply, kind, hquiet]
    · rw [log_of_ask answered]
      simp [Step.events, Step.shown, Step.commands, kind, hquiet]
  | @unexpected s _ answered kind =>
    have hquiet : s.asksShell = false := Step.asksShell_of_not_action (by simp [kind])
    refine ⟨s, [], by simp [kind], ?_, ?_⟩
    · simp [observation_eq_report, Step.reply, kind]
    · rw [log_of_ask answered]
      simp [Step.events, Step.shown, Step.commands, kind, hquiet]

theorem reply_of_not_asksShell {s : Step} (h : s.asksShell = false) (result result' : CodeUnits) :
    s.reply result = s.reply result' := by
  unfold Step.reply
  simp [h]

theorem observed_cons (s : Step) (message : String) (result : CodeUnits) (steps : List Step)
    (rest : List CodeUnits) :
    observed (s :: steps) (results (s.events message result) ++ rest) = s.reply result ::
      observed steps rest := by
  rw [results_events]
  cases h : s.asksShell
  · cases rest <;> simp [observed, h, reply_of_not_asksShell h [] result]
  · simp [observed, h]

section Round

variable {s : Step} {result : CodeUnits} {z : σ} {log : List Event} {ending : Except Halt Bool}

theorem steps_round : steps (s.events message result ++ log) = s :: steps log := by
  simp [steps, answers_events]

theorem lines_round : lines (s.events message result ++ log) = s.shown ++ lines log := by
  rw [lines_append, lines_events]

theorem commands_round :
    commands (s.events message result ++ log) = s.commands ++ commands log := by
  rw [commands_append, commands_events]

theorem Refused.round (h : Refused p z log ending) :
    Refused p z (s.events message result ++ log) ending := by
  obtain ⟨line, f, hwrite, hlines, hending⟩ := h
  refine ⟨line, f, hwrite, ?_, hending⟩
  rw [steps_round, lines_round, List.flatMap_cons, hlines, List.append_assoc]

/-- A log follows the protocol if what comes after its first step does. -/
theorem Follows.round (hkind : s.kind ≠ .output)
    (h : Follows p n (report (s.reply result)) z log ending) :
    Follows p (n + 1) message z (s.events message result ++ log) ending where
  sent := by
    rw [steps_round, messages_append, results_append, messages_events, observed_cons]
    exact List.cons_prefix_cons.mpr ⟨rfl, h.sent⟩
  calls := by
    intro sequence hsequence
    rw [answers_append, answers_events] at hsequence ⊢
    obtain ⟨rest, rfl⟩ := hsequence
    have hspan : span (n + 1) (.step s :: (answers log ++ rest)) =
        span n (answers log ++ rest) + 1 := by
      rw [span_cons, if_neg]
      simpa [Answer.isOutput] using hkind
    obtain ⟨hle, hless⟩ := h.calls (answers log ++ rest) (List.prefix_append _ _)
    simp only [List.cons_append, List.nil_append, List.length_cons, hspan]
    exact ⟨by omega, fun hlt => hless (by omega)⟩
  ran := by
    rw [steps_round, commands_round, List.flatMap_cons]
    exact (List.prefix_append_right_inj _).mpr h.ran
  written := by
    rw [steps_round, lines_round, List.flatMap_cons]
    exact (List.prefix_append_right_inj _).mpr h.written
  complete := by
    obtain ⟨hcommands, hlines⟩ | hrefused := h.complete
    · rw [steps_round, commands_round, lines_round, List.flatMap_cons, List.flatMap_cons,
        hcommands, hlines]
      exact .inl ⟨rfl, rfl⟩
    · exact .inr hrefused.round
  result := by
    intro b hb
    rw [steps_round, h.result b hb]
    simp [hkind]
  raised := by
    intro event hevent halt hraised
    obtain hevent | hevent := List.mem_append.mp hevent
    · rw [raised_events s message result event hevent] at hraised
      cases hraised
    · exact h.raised event hevent halt hraised
  cause := by
    intro halt hhalt
    obtain ⟨event, hevent, hraised⟩ | hrefused := h.cause halt hhalt
    · exact .inl ⟨event, List.mem_append_right _ hevent, hraised⟩
    · exact .inr hrefused.round

end Round

/-- A conversation that ends with its first answer has taken all that it may, unless it is
halted. -/
theorem calls_of_last {log : List Event} {answer : Answer} {ending : Except Halt Bool}
    (hanswers : answers log = [answer])
    (hlast : answer.isOutput = true ∨ ∃ halt, ending = .error halt) (sequence : List Answer)
    (hsequence : answers log <+: sequence) : (answers log).length ≤ span (n + 1) sequence ∧
      ((answers log).length < span (n + 1) sequence → ∃ halt, ending = .error halt) := by
  rw [hanswers] at hsequence ⊢
  obtain ⟨rest, rfl⟩ := hsequence
  rw [List.singleton_append, span_cons, List.length_singleton]
  split
  · exact ⟨by omega, fun hlt => by omega⟩
  · next hnot => exact ⟨by omega, fun _ => hlast.resolve_left hnot⟩

/-- A conversation that ends with the answer to a message follows the protocol. -/
theorem Ends.log {talk : Transcript (σ × List Event)} (h : Ends p.watched message x talk) :
    ∃ log, talk.state.2 = x.2 ++ log ∧ Follows p (n + 1) message talk.state.1 log talk.ending := by
  cases h with
  | fault answered =>
    refine ⟨_, log_of_ask answered, ?_⟩
    constructor
    case calls => exact calls_of_last rfl (.inr ⟨_, rfl⟩)
    all_goals simp [messages, steps, answers, commands, lines, List.filterMap_cons]
  | interrupt answered =>
    refine ⟨_, log_of_ask answered, ?_⟩
    constructor
    case calls => exact calls_of_last rfl (.inr ⟨_, rfl⟩)
    all_goals simp [messages, steps, answers, commands, lines, List.filterMap_cons]
  | output answered kind told =>
    refine ⟨_, (log_of_write told).trans (by rw [log_of_ask answered, List.append_assoc]), ?_⟩
    constructor
    case calls => exact calls_of_last rfl (.inl (by simp [Answer.isOutput, kind]))
    all_goals
      simp [messages, steps, answers, commands, lines, List.filterMap_cons, Step.commands,
        ← lines_eq_shown, Step.lines, Step.asksShell, kind]
  | @refused s line f y answered said told =>
    have hrefused : Refused p y.1 [.answered message (.step s)] (.error (.fault f)) := by
      have hline : s.shown = [line] := by
        rw [← lines_eq_shown]
        unfold Step.lines at said ⊢
        split at said <;> simp_all
      exact ⟨line, f, refused_of_write told, by simp [steps, answers, lines, List.filterMap_cons,
        hline], rfl⟩
    refine ⟨_, log_of_ask answered, ?_⟩
    constructor
    case calls => exact calls_of_last rfl (.inr ⟨_, rfl⟩)
    case complete => exact .inr hrefused
    case cause => exact fun halt hhalt => .inr hrefused
    all_goals simp [messages, steps, answers, commands, lines, List.filterMap_cons]
  | stopped asked answered =>
    obtain ⟨s, kind, shell, rfl, hlog⟩ := asked.log
    have hcommands : s.commands = [s.request] := if_pos shell
    have hshown : s.shown = [.ofString "running: " ++ s.input.display ++ .ofString "\n"] := by
      simp [Step.shown, kind, shell]
    rw [hshown] at hlog
    refine ⟨_, (log_of_run answered).trans (by rw [hlog, List.append_assoc]), ?_⟩
    constructor
    case calls => exact calls_of_last rfl (.inr ⟨_, rfl⟩)
    all_goals
      simp [messages, steps, answers, commands, lines, List.filterMap_cons, hcommands, hshown, kind]

theorem follows_zero (x : σ) : Follows p 0 message x [] (.ok false) := by
  constructor <;> simp [messages, steps, answers, commands, lines]

/-- What a watched conversation adds to its log follows the protocol. -/
theorem follows_watched (n : Nat) (message : String) (x : σ × List Event) :
    ∃ log, (converse p.watched n message x).state.2 = x.2 ++ log ∧
      Follows p n message (converse p.watched n message x).state.1 log
        (converse p.watched n message x).ending := by
  -- what has been logged before is kept, and the protocol is about what is added to it
  induction n generalizing message x with
  | zero => exact ⟨[], (List.append_nil _).symm, follows_zero x.1⟩
  | succ n ih =>
    have hturn := turns_converse (p := p.watched) n message x
    generalize converse p.watched (n + 1) message x = talk at hturn
    cases hturn with
    | @next message' y hnext =>
      obtain ⟨s, result, hkind, rfl, hlog⟩ := hnext.log
      obtain ⟨log, hlater, hfollows⟩ := ih (report (s.reply result)) y
      exact ⟨_, by rw [hlater, hlog, List.append_assoc], hfollows.round hkind⟩
    | last hends => exact hends.log

/-- A conversation follows its protocol, whatever the surroundings do, and each of its reports is
the JSON text of an observation. -/
theorem converse_follows (p : Partner σ) (n : Nat) (prompt : String) (x : σ) :
    let talk := converse p.watched n prompt (x, [])
    converse p n prompt x = ⟨talk.state.1, talk.ending⟩ ∧
      Follows p n prompt talk.state.1 talk.state.2 talk.ending ∧
      ∀ content, Json.parse (report content) = .ok (reported content) := by
  obtain ⟨log, hlog, hfollows⟩ := follows_watched (p := p) n prompt (x, [])
  refine ⟨converse_watched n prompt (x, []), ?_, parse_report⟩
  rwa [hlog]

/-- A partner that gives prepared answers, echoes what it is to run and takes every line. -/
def echoing (answers : List Answer) : Partner (List String) where
  ask message sent := ((Client.scripted [] answers).answer (sent ++ [message]), sent ++ [message])
  run command sent := (.ok command.display, sent)
  write _ sent := .ok sent

/-- Inputs that count as nothing are run as the empty text, and others as they are, also if they are
no texts. -/
theorem converse_follows_inputs :
    let shell (input : Json) : Answer :=
      .step { kind := .action, tool := .str (.ofString "run_shell_command"), input }
    let inputs : List Json := [.null, .bool false, .int 0, .str [], .arr [], .obj [], .int 7,
      .arr [.int 0], .str (.ofString "pwd")]
    let talk := converse (echoing (inputs.map shell)).watched 9 "q" ([], [])
    (commands talk.state.2).map Json.render =
        ["\"\"", "\"\"", "\"\"", "\"\"", "\"\"", "\"\"", "7", "[0]", "\"pwd\""] ∧
      (messages talk.state.2).getLast? =
        some "\x7b\"step\": \"observe\", \"content\": \"[0]\"\x7d" ∧
      Follows (echoing (inputs.map shell)) 9 "q" talk.state.1 talk.state.2 talk.ending := by
  intro shell inputs talk
  refine ⟨by decide +kernel, by decide +kernel, ?_⟩
  exact (converse_follows (echoing (inputs.map shell)) 9 "q" []).2.1

end Chat

end CommandShell
