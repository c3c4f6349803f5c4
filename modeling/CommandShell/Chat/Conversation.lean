import CommandShell.Chat.Step

/-!
# Conversations

A prompt is driven through the steps of a chat model until the model gives its output or a number of
answers is used up. The model may ask for shell commands to be run; what they print is sent back as
an observation. `Partner` is what a conversation needs of its surroundings.
-/

namespace CommandShell.Chat

/-- What a call of a chat model gives. -/
inductive Answer where
  | step (s : Step)
  | interrupt
  | fault (f : Fault)

/-- A chat model: the models it offers, and its answer to the last of the messages it has been sent.
-/
structure Client where
  models : List String
  answer : List String → Answer

/-- A client that gives prepared answers one after the other and repeats the last one. -/
def Client.scripted (models : List String) (answers : List Answer) : Client where
  models := models
  answer messages :=
    (answers[messages.length - 1]?.or answers.getLast?).getD (.fault (.client .runtime ""))

/-- The name of the tool that runs shell commands. -/
def shellTool : String := "run_shell_command"

/-- The most answers of a chat model that one prompt may take. -/
def maxSteps : Nat := 10

/-- The surroundings of a conversation: a state, a way to ask the model, a way to run a command and
a way to write, which may refuse a text. -/
structure Partner (σ : Type) where
  ask : String → σ → Answer × σ
  run : Json → σ → Except Halt CodeUnits × σ
  write : CodeUnits → σ → Except Fault σ

/-- How a conversation went: the state, and whether the model gave its output. -/
structure Transcript (σ : Type) where
  state : σ
  ending : Except Halt Bool

/-- Whether an action asks for the shell. -/
def usesShell (s : Step) : Bool :=
  match s.tool with
  | .str name => name = CodeUnits.ofString shellTool
  | _ => false

/-- The command that an action asks for; an empty input is an empty command. -/
def commandOf (s : Step) : Json := if s.input.isEmpty then .str [] else s.input

/-- A text after some words, as a line. -/
def lineOf (words : String) (text : CodeUnits) : CodeUnits :=
  .ofString words ++ text ++ .ofString "\n"

/-- Write a line and go on. -/
def Partner.tell {σ : Type} (p : Partner σ) (line : CodeUnits) (state : σ)
    (next : σ → Transcript σ) : Transcript σ :=
  match p.write line state with
  | .error f => ⟨state, .error (.fault f)⟩
  | .ok state => next state

/-- Send a message and follow the answers, `n` of them at most. -/
def converse {σ : Type} (p : Partner σ) : Nat → String → σ → Transcript σ
  | 0, _, state => ⟨state, .ok false⟩
  | n + 1, message, state =>
    match p.ask message state with
    | (.fault f, state) => ⟨state, .error (.fault f)⟩
    | (.interrupt, state) => ⟨state, .error .interrupt⟩
    | (.step s, state) =>
      let goOn (observed : CodeUnits) (state : σ) := converse p n (Step.observation observed) state
      match s.kind with
      | .output => p.tell (lineOf "" s.content) state fun state => ⟨state, .ok true⟩
      | .think => p.tell (lineOf "thinking: " s.content) state (goOn (.ofString "continue"))
      | .action =>
        if usesShell s then
          p.tell (lineOf "running: " s.input.display) state fun state =>
            match p.run (commandOf s) state with
            | (.error h, state) => ⟨state, .error h⟩
            | (.ok text, state) => goOn text state
        else goOn (.ofString "unknown tool: " ++ s.tool.display) state
      | .observe => goOn (.ofString "unexpected step") state

end CommandShell.Chat
