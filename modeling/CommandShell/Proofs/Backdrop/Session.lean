import CommandShell.Proofs.Builtin.Edits
import CommandShell.Proofs.Builtin.Mapping
import CommandShell.Proofs.Reading

/-!
# Builtins before another backdrop

A command does not look at what has been shown before it, at what the log echoes, or at the status
of the line before. So it does the same in a session that differs in nothing else: what it shows is
shown behind something else, and without the echoes.

## Main statements

- `Session.against`: a session before another backdrop.
- `Builtin.unseen_against`: a backdrop makes no difference to builtins.
-/

namespace CommandShell

namespace Screen

theorem written_append (a b : Screen) :
    Screen.written (a ++ b) = Screen.written a ++ Screen.written b :=
  List.filter_append ..

theorem written_eq_self {screen : Screen} (h : ∀ e ∈ screen, e.echo = false) :
    screen.written = screen :=
  List.filter_eq_self.mpr fun e he => by simp [h e he]

@[simp] theorem written_written (screen : Screen) : screen.written.written = screen.written :=
  written_eq_self fun e he => by simpa using (List.mem_filter.mp he).2

@[simp] theorem echoes_written (screen : Screen) : screen.written.echoes = [] :=
  List.filter_eq_nil_iff.mpr fun e he => by simpa using (List.mem_filter.mp he).2

@[simp] theorem written_echoes (screen : Screen) : screen.echoes.written = [] :=
  List.filter_eq_nil_iff.mpr fun e he => by simpa using (List.mem_filter.mp he).2

end Screen

/-- What commands do not look at: what has been shown before, and the status of the last line. -/
structure Backdrop where
  shown : Screen := []
  lastStatus : Int := 0

namespace Session

/-- A session before another backdrop. What it has shown itself comes behind what was shown there,
and the log echoes nothing. -/
def against (b : Backdrop) (s : Session) : Session :=
  { s with
    log := s.log.echoTo none
    screen := b.shown ++ s.screen.written
    lastStatus := b.lastStatus }

variable {b : Backdrop} (s : Session)

@[simp] theorem environment_against : (s.against b).environment = s.environment := rfl

@[simp] theorem cwd_against : (s.against b).cwd = s.cwd := rfl

@[simp] theorem history_against : (s.against b).history = s.history := rfl

@[simp] theorem settings_against : (s.against b).settings = s.settings := rfl

@[simp] theorem client_against : (s.against b).client = s.client := rfl

@[simp] theorem messages_against : (s.against b).messages = s.messages := rfl

@[simp] theorem world_against : (s.against b).world = s.world := rfl

@[simp] theorem machine_against : (s.against b).machine = s.machine := rfl

@[simp] theorem direct_against : (s.against b).direct = s.direct := rfl

@[simp] theorem interrupts_against : (s.against b).interrupts = s.interrupts := rfl

@[simp] theorem searchPath_against : (s.against b).searchPath = s.searchPath := rfl

@[simp] theorem home_against : (s.against b).home = s.home := rfl

@[simp] theorem resolvePath_against (path : String) :
    (s.against b).resolvePath path = s.resolvePath path := rfl

@[simp] theorem historyFile_against : (s.against b).historyFile = s.historyFile := rfl

/-- A session that shows something more which is no echo. -/
theorem against_of_shown {shown : Screen} (h : ∀ e ∈ shown, e.echo = false) :
    ({ s with screen := s.screen ++ shown } : Session).against b =
      { s.against b with screen := (s.against b).screen ++ shown } := by
  simp only [against, Screen.written_append, Screen.written_eq_self h, List.append_assoc]

theorem display_against (channel : Channel) (text : String) :
    (s.against b).display channel text = (s.display channel text).against b :=
  (s.against_of_shown (by simp)).symm

theorem note_against (level : Log.Level) (source message : String) (pid : Option Nat) :
    (s.against b).note level source message pid = (s.note level source message pid).against b := by
  unfold note Log.record
  cases hecho : s.log.echo with
  | none => simp [against, Log.echoTo]
  | some echo =>
    by_cases hlevel : echo.least.atLeast level
    · simp [against, Log.echoTo, hlevel, Screen.written]
    · simp [against, Log.echoTo, hlevel]

theorem echo_of_shownOf {spill : Spill} {shown : Shown} (h : shownOf spill = some shown) :
    shown.echo = false := by
  unfold shownOf at h
  split at h <;> cases h
  rfl

theorem absorb_against : (s.against b).absorb = s.absorb.against b := by
  have hplain : ∀ e ∈ s.world.spilled.reverse.filterMap shownOf, e.echo = false := by
    intro e he
    obtain ⟨spill, -, hshown⟩ := List.mem_filterMap.mp he
    exact echo_of_shownOf hshown
  unfold absorb
  rw [direct_against, world_against]
  split
  · simp only [against, onKernel, Screen.written_append, Screen.written_eq_self hplain,
      List.append_assoc]
  · rfl

theorem onKernel_against (f : Kernel → Kernel) :
    (s.against b).onKernel f = (s.onKernel f).against b := rfl

theorem flushHistory_against :
    (s.against b).flushHistory = (s.flushHistory.1, s.flushHistory.2.against b) := by
  unfold flushHistory
  rw [historyFile_against]
  cases s.historyFile with
  | none => rfl
  | some file =>
    dsimp only
    rw [history_against, world_against]
    rcases s.history.write s.world file with ⟨history, world, f | _⟩
    · cases f <;>
        first
        | rfl
        | exact congrArg (Prod.mk _) (note_against { s with history, world } ..)
    · rfl

end Session

namespace Builtin

variable {b : Backdrop}

/-- A way to run lines that does the same before every backdrop. -/
def Transparent (capture : Capture) : Prop :=
  ∀ b line (s : Session), capture line (s.against b) =
    ((capture line s).1, (capture line s).2.against b)

section Replies

variable (s : Session) (args : List String)

theorem runExit_against :
    runExit (s.against b) args = (runExit s args).map (Session.against b) := by
  unfold runExit
  rw [s.flushHistory_against]
  rcases s.flushHistory with ⟨_ | _, _⟩ <;> rfl

theorem runEcho_against :
    runEcho (s.against b) args = (runEcho s args).map (Session.against b) := by
  unfold runEcho
  split <;> rfl

theorem enter_against (target : String) (path : Path) :
    enter (s.against b) target path = (enter s target path).map (Session.against b) := by
  unfold enter
  rw [s.world_against]
  rcases s.world.exists? path with f | _ | _
  · rfl
  · rfl
  · rcases s.world.isDir path with f | _ | _
    · rfl
    · rfl
    · rcases s.world.resolve path with f | real <;> rfl

theorem runCd_against : runCd (s.against b) args = (runCd s args).map (Session.against b) := by
  unfold runCd
  dsimp only
  rw [s.home_against, s.resolvePath_against]
  split
  · rcases s.home with _ | home
    · rfl
    · exact enter_against s _ home
  · exact enter_against s _ _

theorem runType_against :
    runType (s.against b) args = (runType s args).map (Session.against b) := by
  unfold runType
  split <;> rfl

theorem transfer_against (flag : HistoryFlag) (file : Path) :
    transfer (s.against b) flag file =
      ((transfer s flag file).1.against b, (transfer s flag file).2) := by
  unfold transfer
  rw [s.history_against, s.world_against]
  cases flag with
  | read => rcases s.history.read s.world file with _ | _ <;> rfl
  | write | append => rfl

theorem runHistory_against :
    runHistory (s.against b) args = (runHistory s args).map (Session.against b) := by
  unfold runHistory
  split
  · rfl
  · rfl
  · next first rest _ =>
    cases historyFlag? first with
    | some flag =>
      dsimp only
      rw [show (s.against b).resolvePath = s.resolvePath from rfl, s.historyFile_against]
      cases (rest.head?.map s.resolvePath).or s.historyFile with
      | none => rfl
      | some file =>
        dsimp only
        rw [transfer_against]
        rcases transfer s flag file with ⟨s', f | _⟩
        · cases f <;> rfl
        · rfl
    | none =>
      dsimp only
      cases Text.integer? first <;> rfl

theorem changeSetting_against (file : Path) (key value : String) :
    changeSetting (s.against b) file key value =
      (changeSetting s file key value).map (Session.against b) := by
  unfold changeSetting
  rw [s.client_against, s.world_against]
  extract_lets unknown
  split
  · rfl
  · rcases Settings.set s.world file key (.ofString value) with ⟨world, (_ | _) | _⟩ <;> rfl

theorem runLog_against : runLog (s.against b) args = (runLog s args).map (Session.against b) := by
  unfold runLog
  dsimp only
  rw [show (s.against b).log.filter = s.log.filter from rfl]
  split
  · rcases s.log.filter none none with _ | _ <;> rfl
  · rfl
  · next name _ =>
    cases Log.Level.ofName? name with
    | none => rfl
    | some level =>
      dsimp only
      rcases s.log.filter (some level) none with _ | _ <;> rfl
  · rfl

end Replies

/-- A backdrop makes no difference to builtins. -/
theorem unseen_against {capture : Capture} (hc : Transparent capture) :
    Unseen capture (fun _ => True) (Session.against b) where
  enduring := enduring_true capture
  settings _ := rfl
  client _ := rfl
  messages _ := rfl
  ask _ _ := rfl
  capture line s _ := hc b line s
  exit s args _ := runExit_against s args
  echo s args _ := runEcho_against s args
  pwd _ _ := rfl
  cd s args _ := runCd_against s args
  type s args _ := runType_against s args
  history s args _ := runHistory_against s args
  log s args _ := runLog_against s args
  config _ _ _ _ := rfl
  changeSetting s file key value _ _ := changeSetting_against s file key value

end Builtin

end CommandShell
