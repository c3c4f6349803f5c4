import CommandShell.Chat.Conversation

/-!
# What a conversation asks for

A conversation goes from one message to the next, and may ask for a line to be run before it goes
on. What asking and writing keep, and all lines that are asked for, the conversation keeps.

## Main statements

- `Chat.turns_converse`: with the answer to a message a conversation goes on or ends.
- `Chat.converse_requests`: a conversation keeps what its requests keep.
- `Chat.converse_map`: a conversation in surroundings that are mapped to others.
-/

namespace CommandShell

namespace Chat

variable {σ : Type} (p : Partner σ)

/-- The answer to a message asks for a line, which is run in a state. -/
inductive Asks (message : String) (x : σ) : Json → σ → Prop where
  | mk {s : Step} {y z : σ} (answered : p.ask message x = (.step s, y)) (kind : s.kind = .action)
      (shell : usesShell s = true) (told : p.write (lineOf "running: " s.input.display) y = .ok z) :
      Asks message x (commandOf s) z

/-- How a conversation goes on after the answer to a message: with another one, in a state. -/
inductive GoesOn (message : String) (x : σ) : String → σ → Prop where
  | thought {s : Step} {y z : σ} (answered : p.ask message x = (.step s, y))
      (kind : s.kind = .think) (told : p.write (lineOf "thinking: " s.content) y = .ok z) :
      GoesOn message x (Step.observation (.ofString "continue")) z
  | ran {line : Json} {text : CodeUnits} {y z : σ} (asked : Asks p message x line y)
      (answered : p.run line y = (.ok text, z)) : GoesOn message x (Step.observation text) z
  | unknown {s : Step} {y : σ} (answered : p.ask message x = (.step s, y)) (kind : s.kind = .action)
      (shell : usesShell s = false) :
      GoesOn message x (Step.observation (.ofString "unknown tool: " ++ s.tool.display)) y
  | unexpected {s : Step} {y : σ} (answered : p.ask message x = (.step s, y))
      (kind : s.kind = .observe) :
      GoesOn message x (Step.observation (.ofString "unexpected step")) y

/-- The lines that are written for a step. -/
def Step.lines (s : Step) : List CodeUnits :=
  match s.kind with
  | .think => [lineOf "thinking: " s.content]
  | .action => if usesShell s then [lineOf "running: " s.input.display] else []
  | .output => [lineOf "" s.content]
  | .observe => []

/-- How a conversation ends with the answer to a message. -/
inductive Ends (message : String) (x : σ) : Transcript σ → Prop where
  | fault {f : Fault} {y : σ} (answered : p.ask message x = (.fault f, y)) :
      Ends message x ⟨y, .error (.fault f)⟩
  | interrupt {y : σ} (answered : p.ask message x = (.interrupt, y)) :
      Ends message x ⟨y, .error .interrupt⟩
  | output {s : Step} {y z : σ} (answered : p.ask message x = (.step s, y))
      (kind : s.kind = .output)
      (told : p.write (lineOf "" s.content) y = .ok z) : Ends message x ⟨z, .ok true⟩
  /-- A line cannot be written. -/
  | refused {s : Step} {line : CodeUnits} {f : Fault} {y : σ}
      (answered : p.ask message x = (.step s, y))
      (said : line ∈ s.lines) (told : p.write line y = .error f) :
        Ends message x ⟨y, .error (.fault f)⟩
  | stopped {line : Json} {halt : Halt} {y z : σ} (asked : Asks p message x line y)
      (answered : p.run line y = (.error halt, z)) : Ends message x ⟨z, .error halt⟩

/-- What comes of a message in a conversation that may take so many answers after this one. -/
inductive Turns (n : Nat) (message : String) (x : σ) : Transcript σ → Prop where
  | next {message' : String} {x' : σ} (h : GoesOn p message x message' x') :
      Turns n message x (converse p n message' x')
  | last {talk : Transcript σ} (h : Ends p message x talk) : Turns n message x talk

/-- In a conversation of at most so many answers a line is asked for, which is run in a state. -/
inductive Requests : Nat → String → σ → Json → σ → Prop where
  | now {n : Nat} {message : String} {x y : σ} {line : Json} (h : Asks p message x line y) :
      Requests (n + 1) message x line y
  | later {n : Nat} {message message' : String} {x x' y : σ} {line : Json}
      (h : GoesOn p message x message' x')
      (g : Requests n message' x' line y) : Requests (n + 1) message x line y

variable {p}

/-- With the answer to a message a conversation goes on or ends. -/
theorem turns_converse (n : Nat) (message : String) (x : σ) :
    Turns p n message x (converse p (n + 1) message x) := by
  have htell {s : Step} {line : CodeUnits} {y : σ} (next : σ → Transcript σ)
      (hanswer : p.ask message x = (.step s, y)) (hsaid : s.lines = [line])
      (hnext : ∀ z, p.write line y = .ok z → Turns p n message x (next z)) :
      Turns p n message x (p.tell line y next) := by
    unfold Partner.tell
    split
    · next hw => exact .last (.refused hanswer (hsaid ▸ List.mem_singleton_self line) hw)
    · next z hw => exact hnext z hw
  unfold converse
  rcases hanswer : p.ask message x with ⟨s | _ | _, y⟩
  · dsimp only
    split
    · next hkind =>
        exact htell _ hanswer (by simp [Step.lines, hkind]) fun z hw =>
          .last (.output hanswer hkind hw)
    · next hkind =>
        exact htell _ hanswer (by simp [Step.lines, hkind]) fun z hw =>
          .next (.thought hanswer hkind hw)
    · next hkind =>
      split
      · next hshell =>
        apply htell _ hanswer (by simp [Step.lines, hkind, hshell])
        intro z hw
        have hasks : Asks p message x (commandOf s) z := .mk hanswer hkind hshell hw
        rcases hresult : p.run (commandOf s) z with ⟨halt | text, w⟩
        · exact .last (.stopped hasks hresult)
        · exact .next (.ran hasks hresult)
      · next hshell => exact .next (.unknown hanswer hkind (Bool.eq_false_iff.mpr hshell))
    · next hkind => exact .next (.unexpected hanswer hkind)
  · exact .last (.interrupt hanswer)
  · exact .last (.fault hanswer)

section Keeps

variable {P : σ → Prop} (hask : ∀ m x, P x → P (p.ask m x).2) (hwrite : ∀ units x y,
  p.write units x = .ok y → P x → P y) {message : String} {x : σ}
include hask

theorem keeps_ask {answer : Answer} {y : σ} (answered : p.ask message x = (answer, y))
    (hx : P x) : P y := by
  have hy := hask message x hx
  rwa [answered] at hy

include hwrite

theorem Asks.keeps {line : Json} {y : σ} (h : Asks p message x line y) (hx : P x) : P y := by
  obtain ⟨answered, -, -, told⟩ := h
  exact hwrite _ _ _ told (keeps_ask hask answered hx)

variable (hrun : ∀ line y, Asks p message x line y → P y → P (p.run line y).2)
include hrun

theorem Asks.keeps_run {line : Json} {result : Except Halt CodeUnits} {y z : σ}
    (h : Asks p message x line y) (answered : p.run line y = (result, z)) (hx : P x) : P z := by
  have hz := hrun line y h (h.keeps hask hwrite hx)
  rwa [answered] at hz

theorem GoesOn.keeps {message' : String} {x' : σ} (h : GoesOn p message x message' x')
    (hx : P x) : P x' := by
  cases h with
  | thought answered _ told => exact hwrite _ _ _ told (keeps_ask hask answered hx)
  | ran asked answered => exact asked.keeps_run hask hwrite hrun answered hx
  | unknown answered => exact keeps_ask hask answered hx
  | unexpected answered => exact keeps_ask hask answered hx

theorem Ends.keeps {talk : Transcript σ} (h : Ends p message x talk) (hx : P x) : P talk.state := by
  cases h with
  | fault answered => exact keeps_ask hask answered hx
  | interrupt answered => exact keeps_ask hask answered hx
  | output answered _ told => exact hwrite _ _ _ told (keeps_ask hask answered hx)
  | refused answered => exact keeps_ask hask answered hx
  | stopped asked answered => exact asked.keeps_run hask hwrite hrun answered hx

end Keeps

/-- A conversation keeps what asking, writing and the lines that it requests keep. -/
theorem converse_requests {P : σ → Prop} (hask : ∀ m x, P x → P (p.ask m x).2)
    (hwrite : ∀ units x y, p.write units x = .ok y → P x → P y) (n : Nat) (message : String) {x : σ}
    (hrun : ∀ line y, Requests p n message x line y → P y → P (p.run line y).2) (hx : P x) :
    P (converse p n message x).state := by
  induction n generalizing message x with
  | zero => exact hx
  | succ n ih =>
    have hnow (line : Json) (y : σ) (h : Asks p message x line y) : P y → P (p.run line y).2 :=
      hrun line y (.now h)
    have hturn := turns_converse (p := p) n message x
    generalize converse p (n + 1) message x = talk at hturn
    cases hturn with
    | next hnext =>
      apply ih _ fun line y hr => hrun line y (.later hnext hr)
      exact hnext.keeps hask hwrite hnow hx
    | last hends => exact hends.keeps hask hwrite hnow hx

/-- A conversation goes the same way in surroundings that are mapped to others, as long as it does
not leave those for which the mapping makes no difference. -/
theorem converse_map {τ : Type} {q : Partner τ} {P : σ → Prop} {f : σ → τ}
    (hask : ∀ message x, P x → q.ask message (f x) = ((p.ask message x).1, f (p.ask message x).2))
    (hrun : ∀ line x, P x → q.run line (f x) = ((p.run line x).1, f (p.run line x).2))
    (hwrite : ∀ units x, q.write units (f x) = (p.write units x).map f)
    (hasked : ∀ message x, P x → P (p.ask message x).2) (hran : ∀ line x, P x → P (p.run line x).2)
    (hwritten : ∀ units x y, p.write units x = .ok y → P x → P y) (n : Nat) (message : String)
    {x : σ} (hx : P x) :
    converse q n message (f x) =
      ⟨f (converse p n message x).state, (converse p n message x).ending⟩ := by
  have htell (line : CodeUnits) {x : σ} (next : σ → Transcript σ)
      (next' : τ → Transcript τ) (hx : P x)
      (hnext : ∀ y, P y → next' (f y) = ⟨f (next y).state, (next y).ending⟩) :
      q.tell line (f x) next' = ⟨f (p.tell line x next).state, (p.tell line x next).ending⟩ := by
    unfold Partner.tell
    rw [hwrite]
    rcases hw : p.write line x with _ | y
    · rfl
    · exact hnext y (hwritten _ _ _ hw hx)
  induction n generalizing message x with
  | zero => rfl
  | succ n ih =>
    have hy := hasked message x hx
    unfold converse
    rw [hask _ _ hx]
    generalize p.ask message x = asked at hy ⊢
    obtain ⟨step | _ | _, y⟩ := asked
    · dsimp only at hy ⊢
      split
      · exact htell _ _ _ hy fun y _ => rfl
      · exact htell _ _ _ hy fun y hy => ih _ hy
      · split
        · refine htell _ _ _ hy fun y hy => ?_
          have hz := hran (commandOf step) y hy
          rw [hrun _ _ hy]
          generalize p.run (commandOf step) y = ran at hz ⊢
          obtain ⟨_ | text, z⟩ := ran
          · rfl
          · exact ih _ hz
        · exact ih _ hy
      · exact ih _ hy
    · rfl
    · rfl

end Chat

end CommandShell
