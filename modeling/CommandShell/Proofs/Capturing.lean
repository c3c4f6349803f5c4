import CommandShell.Proofs.Backdrop.Run
import CommandShell.Proofs.Text.CodeUnits
import CommandShell.Shell

/-!
# Capturing what a line writes

A line that is captured runs as one that is not, on a screen of its own. What commands do does not
depend on the screen, so the two lines differ in nothing but where the text is left, and in that a
captured line cannot end the session.

## Main statements

- `Shell.transparent_capture`: a captured line does the same before every backdrop.
- `Shell.captureStages_eq_run`: captured stages write what the same stages show.
- `Shell.captureLine_eq_runLine`: a captured line answers with what the same line shows.
-/

namespace CommandShell

/-- A session that echoes nothing and shows nothing stands before a backdrop with nothing on it. -/
theorem Session.against_of_quiet {s : Session} (hquiet : s.log.echo = none) (shown : Screen) :
    ({ s with screen := shown } : Session) =
      ({ s with screen := [] } : Session).against { shown, lastStatus := s.lastStatus } := by
  have hlog : s.log.echoTo none = s.log := by rw [Log.echoTo, ← hquiet]
  simp only [against, hlog, Screen.written, List.filter_nil, List.append_nil]

namespace Shell

/-- What a captured line answers when the line comes to an end. -/
def answer (written : String) : Except Halt Int → Except Halt String
  | .ok _ => .ok written
  | .error (.exit _) => .ok (written ++ "exit: not available here\n")
  | .error h => .error h

/-- An answer never ends the session. -/
theorem answer_ne_exit (written : String) (ending : Except Halt Int) (code : Int) :
    answer written ending ≠ .error (.exit code) := by
  rcases ending with (_ | _ | _) | _ <;> simp [answer]

/-- What is captured of stages that have been run on a blank screen for a session. -/
def captured (s : Session) (o : Pipeline.Outcome) : Except Halt String × Session :=
  (answer (Screen.written o.session.screen).text o.ending,
    { o.session with screen := s.screen ++ Screen.echoes o.session.screen, direct := s.direct })

theorem captureStages_eq (capture : Builtin.Capture) (s : Session) (stages : List Stage) :
    captureStages capture s stages =
      captured s (Pipeline.run capture { s with screen := [], direct := false } stages) := by
  unfold captureStages captured
  generalize Pipeline.run capture { s with screen := [], direct := false } stages = o
  dsimp only
  rcases o.ending with (_ | _ | _) | _ <;> rfl

/-- What is captured does not depend on the backdrop. -/
theorem captured_against {b : Backdrop} (s : Session) (o : Pipeline.Outcome) :
    captured (s.against b) (o.against { lastStatus := b.lastStatus }) =
      ((captured s o).1, (captured s o).2.against b) := by
  simp only [captured, Pipeline.Outcome.against, Session.against, Screen.written_append,
    Screen.written_echoes,
    Screen.echoes_written, Screen.written_written, List.nil_append, List.append_nil]

/-- A captured line does the same before every backdrop. -/
theorem transparent_capture (depth : Nat) : Builtin.Transparent (capture depth) := by
  induction depth with
  | zero => exact fun _ _ _ => rfl
  | succ depth ih =>
    intro b line s
    cases line with
    | str units =>
      have hparse : Stage.parse (s.against b) units.text = Stage.parse s units.text :=
        Stage.parse_congr s.world_against s.environment_against s.cwd_against _
      unfold capture
      dsimp only
      rw [hparse]
      rcases Stage.parse s units.text with e | _ | ⟨stage, rest⟩
      · rfl
      · rfl
      · -- Both lines start on a blank screen, so only the status of the last line differs there.
        have hblank : ({ s.against b with screen := [], direct := false } : Session) =
            ({ s with screen := [], direct := false } : Session).against
              { lastStatus := b.lastStatus } := rfl
        dsimp only
        rw [captureStages_eq, captureStages_eq, hblank, Pipeline.run_against ih]
        exact captured_against s _
    | _ => rfl

/-- Captured stages write what the same stages show, and leave behind what these leave behind, but
for the screen. -/
theorem captureStages_eq_run {capture : Builtin.Capture} (hc : Builtin.Transparent capture)
    {s : Session} (hquiet : s.log.echo = none) (stages : List Stage) {o : Pipeline.Outcome}
    (ho : Pipeline.run capture { s with direct := false } stages = o) :
    ∃ shown : Screen, o.session.screen = s.screen ++ shown ∧ o.session.lastStatus = s.lastStatus ∧
      captureStages capture s stages =
        (answer shown.text o.ending,
          { o.session with screen := s.screen, direct := s.direct }) := by
  let blank : Session := { s with screen := [], direct := false }
  let alone : Pipeline.Outcome := Pipeline.run capture blank stages
  have hblank : blank = blank.against { lastStatus := s.lastStatus } :=
    Session.against_of_quiet (s := blank) hquiet []
  have hran : ({ s with direct := false } : Session) =
      blank.against { shown := s.screen, lastStatus := s.lastStatus } :=
    Session.against_of_quiet (s := { s with direct := false }) hquiet s.screen
  -- What is run on the blank screen shows no echo, as it is the same before a backdrop with nothing
  -- on it.
  have halone : alone = alone.against { lastStatus := s.lastStatus } :=
    (congrArg (fun s => Pipeline.run capture s stages) hblank).trans
      (Pipeline.run_against hc blank stages)
  have hshown : alone.against { shown := s.screen, lastStatus := s.lastStatus } = o := by
    rw [← ho, hran, Pipeline.run_against hc]
  subst hshown
  refine ⟨alone.session.screen.written, rfl, rfl, ?_⟩
  calc captureStages capture s stages = captured s alone := captureStages_eq capture s stages
    _ = captured s (alone.against { lastStatus := s.lastStatus }) := congrArg (captured s) halone
    _ = _ := by
      simp only [captured, Pipeline.Outcome.against, Session.against, Screen.echoes_written,
        Screen.written_written, List.nil_append, List.append_nil]

theorem text_singleton (text : String) (channel : Channel) :
    Screen.text [{ channel, chunk := .text text }] = text := by
  simp [Screen.text, Chunk.toText, String.join]

/-- Capturing a line is running it on a screen in memory that is taken away afterwards: it answers
with the text that the line shows, refuses to end the session, and leaves everything else as the
line leaves it. -/
theorem captureLine_eq_runLine (s : Session) (line : String) (hquiet : s.log.echo = none) :
    ∃ shown : Screen,
      (runLine { s with direct := false } line).2.screen = s.screen ++ shown ∧
      captureLine s line =
        (answer shown.text (runLine { s with direct := false } line).1,
          { (runLine { s with direct := false } line).2 with
            screen := s.screen, direct := s.direct }) ∧
      (captureLine s line).2.lastStatus = s.lastStatus ∧
      ∀ code, (captureLine s line).1 ≠ .error (.exit code) := by
  have hparse : Stage.parse { s with direct := false } line = Stage.parse s line := by
    apply Stage.parse_congr <;> rfl
  unfold captureLine capture runLine
  dsimp only
  rw [CodeUnits.text_ofString, hparse]
  rcases Stage.parse s line with e | _ | ⟨stage, rest⟩
  · refine ⟨[{ channel := .err, chunk := .text (complaint e) }], rfl, ?_, rfl, by simp⟩
    rw [text_singleton]
    rfl
  · exact ⟨[], (List.append_nil _).symm, rfl, rfl, by simp⟩
  · obtain ⟨shown, hscreen, hstatus, hanswer⟩ :=
      captureStages_eq_run (transparent_capture maxDepth) hquiet (stage :: rest) rfl
    refine ⟨shown, hscreen, hanswer, ?_, fun code => ?_⟩
    · exact (congrArg (fun reply => reply.2.lastStatus) hanswer).trans hstatus
    · exact fun hexit => answer_ne_exit _ _ code ((congrArg Prod.fst hanswer).symm.trans hexit)

/-- What a captured pipeline shows on the error channel is part of its answer. -/
theorem captureLine_eq_runLine_missing :
    let s : Session :=
      { cwd := Path.ofParts [], world := {}, machine := ⟨fun _ _ _ => .error .notFound⟩,
        lastStatus := 7 }
    s.log.echo = none ∧ (captureLine s "echo hi | nothing").1 = .ok "nothing: command not found\n" ∧
      (captureLine s "echo hi | nothing").2.lastStatus = 7 := by
  intro s
  have hscreen : (runLine { s with direct := false } "echo hi | nothing").2.screen =
      [{ channel := .err, chunk := .text "nothing: command not found\n" }] := by decide +kernel
  have hending : (runLine { s with direct := false } "echo hi | nothing").1.isOk = true := by
    decide +kernel
  obtain ⟨shown, hshown, hanswer, hstatus, -⟩ := captureLine_eq_runLine s "echo hi | nothing" rfl
  rw [hscreen] at hshown
  obtain rfl : [{ channel := .err, chunk := .text "nothing: command not found\n" }] = shown :=
    hshown
  refine ⟨rfl, ?_, hstatus⟩
  rw [hanswer, text_singleton]
  generalize (runLine { s with direct := false } "echo hi | nothing").1 = ending at hending
  cases ending with
  | ok status => rfl
  | error h => cases hending

end Shell

end CommandShell
