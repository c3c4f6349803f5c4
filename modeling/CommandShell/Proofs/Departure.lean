import CommandShell.Proofs.Leaving
import CommandShell.Proofs.Survival

/-!
# Ways out of the loop

The loop goes on after every line that ends with a status or by an interrupt. It ends with the
input, or at the first line that asks the shell to stop, and on both ways out the history is saved.
Only a name of the history file that no file can have keeps the loop from a regular end.

## Main statements

- `Session.saved_flushHistory`: a history that could be saved is what its file holds.
- `Repl.run_departs`: how the loop ends.
-/

namespace CommandShell

/-- Where a file can be stored after a text has been written, it could be stored before. -/
theorem World.Storable.before {w w' : World} {p : Path} {mode : OpenMode} {text : String}
    {place : Place} {node : Option Node} {result : Except Fault Unit} (h : w'.Storable p place node)
    (hw : w.writeText p mode text = (w', result)) : ∃ before, w.Storable p place before := by
  obtain ⟨f, hrefused⟩ | ⟨files, written, place', before, hwritten, -, hwrote⟩ :=
    w.writeText_cases p mode text
  · cases hw.symm.trans hrefused
    exact ⟨node, h⟩
  · cases hw.symm.trans hwritten
    by_cases hplain : FileSystem.IsPlain before
    · obtain ⟨content, executable, hlocate, -⟩ := hwrote.file hplain
      obtain rfl : place = place' := (Prod.mk.inj (Except.ok.inj (h.located.symm.trans hlocate))).1
      exact ⟨before, ⟨h.named, hwrote.located, hplain⟩, h.free⟩
    · -- a device is written to without a trace
      obtain ⟨rfl, -⟩ := hwrote.device hplain
      exact ⟨node, h⟩

namespace Session

/-- The history is what its file holds, where that can be a file, and all of it counts as stored. -/
def Saved (s : Session) : Prop :=
  ∀ file place node, s.historyFile = some file → s.world.Storable file place node →
    s.world.bytesAt file = Utf8.encode (Text.joinLines s.history.entries) ∧
      s.history.watermark = s.history.entries.length

variable {s s' : Session}

/-- A session that stands where another one does, with the same files, is saved if that one is. -/
theorem Saved.congr (h : s.Saved) (hfiles : s'.world.files = s.world.files)
    (hs : s'.standing = s.standing) : s'.Saved := by
  intro file place node hfile hstorable
  have hdirectory : s'.world.directory = s.world.directory := congrArg Standing.directory hs
  have hrestraint : s'.world.restraint = s.world.restraint := congrArg Standing.restraint hs
  have hthere : s.world.Storable file place node := by
    refine ⟨⟨hstorable.named, ?_, hstorable.plain⟩, hrestraint ▸ hstorable.free⟩
    rw [← hfiles, ← hdirectory]
    exact hstorable.located
  have hbytes : s'.world.bytesAt file = s.world.bytesAt file := by
    simp [World.bytesAt, World.read, World.unreadable?, hfiles, hdirectory, hrestraint]
  rw [hbytes, history_of_standing hs]
  exact h file place node ((historyFile_of_standing hs).symm.trans hfile) hthere

/-- A history that could be saved is what its file holds. -/
theorem saved_flushHistory (h : s.flushHistory = (.ok (), s')) : s'.Saved := by
  unfold flushHistory at h
  split at h
  · next hnone =>
    cases h
    intro file place node hfile
    rw [hnone] at hfile
    cases hfile
  · next file hfile =>
    split at h
    · next history world hwrite =>
      cases h
      intro file' place' node' hfile' hafter
      obtain rfl : file = file' := Option.some.inj (hfile.symm.trans hfile')
      obtain ⟨rfl, hw⟩ := History.write_eq_ok hwrite
      obtain ⟨before, hbefore⟩ := World.Storable.before hafter hw
      obtain ⟨w', _, _, hw', -, hbytes, -⟩ :=
        hbefore.writeText .truncate (Text.joinLines s.history.entries)
      obtain rfl : world = w' := (Prod.mk.inj (hw.symm.trans hw')).1
      exact ⟨by simpa using hbytes, rfl⟩
    · next history world e p herror =>
      cases h
      intro file' place node hfile' hthere
      have hsame : historyFile (({ s with history, world } : Session).note .error "history"
          ("cannot save history: " ++ (Fault.system e p).message)) = s.historyFile := by
        rw [historyFile_of_standing (Upkeep.note ..).standing]
        rfl
      obtain rfl : file = file' := Option.some.inj (hfile.symm.trans (hsame.symm.trans hfile'))
      rw [world_note] at hthere
      obtain ⟨-, hw⟩ := History.write_eq_error herror
      -- where the file could be stored the write has not failed
      obtain ⟨before, hbefore⟩ := World.Storable.before hthere hw
      obtain ⟨w', _, _, hw', -⟩ := hbefore.writeText .truncate (Text.joinLines s.history.entries)
      cases hw.symm.trans hw'
    · cases h

/-- The variable names a history file that no file can be: its name has a null character. -/
def misnamesHistory (s : Session) : Bool := s.historyFile.any fun file => Path.hasNull file.text

theorem misnamesHistory_of_standing (h : s'.standing = s.standing) :
    s'.misnamesHistory = s.misnamesHistory := by
  unfold misnamesHistory
  rw [historyFile_of_standing h]

/-- Saving the history fails just if no file can have the name of its file. -/
theorem flushHistory_fst (s : Session) :
    s.flushHistory.1 = if s.misnamesHistory then .error .embeddedNull else .ok () := by
  unfold flushHistory misnamesHistory
  rcases s.historyFile with _ | file
  · rfl
  · by_cases hnull : Path.hasNull file.text = true
    · simp [History.write, World.writeText, hnull]
    · rcases hw : s.world.files.writeFile s.world.restraint s.world.directory file .truncate
        (Utf8.encode (Text.joinLines s.history.entries)) with ⟨files, e | _⟩ <;>
        simp [History.write, World.writeText, hnull, hw]

end Session

namespace Repl

variable {showPrompt : Session → Session} {ending : InputEnd} {lines : List String}
  {s last : Session}

/-- The lines have been dispatched from the first to the last, and the loop has gone on after each
of them: it returned a status, or was interrupted, which counts as the status 130. -/
inductive Continues (showPrompt : Session → Session) : List String → Session → Session → Prop
  | nil (s : Session) : Continues showPrompt [] s s
  | returned {line : String} {rest : List String} {s s' last : Session} {status : Int} :
      Shell.execute (showPrompt s) line = (.ok status, s') → Continues showPrompt rest s' last →
      Continues showPrompt (line :: rest) s last
  | interrupted {line : String} {rest : List String} {s s' last : Session} :
      Shell.execute (showPrompt s) line = (.error .interrupt, s') →
      Continues showPrompt rest { s'.display .err "\n" with lastStatus := 130 } last →
      Continues showPrompt (line :: rest) s last

/-- No line faults that the loop comes to. -/
def Faultless (showPrompt : Session → Session) (lines : List String) (s : Session) : Prop :=
  ∀ before line after last f, lines = before ++ line :: after → Continues showPrompt before s last →
    (Shell.execute (showPrompt last) line).1 ≠ .error (.fault f)

/-- The loop has come to the end of the input, where the history is saved. -/
structure RanOut (showPrompt : Session → Session) (ending : InputEnd) (lines : List String)
    (s : Session) (o : Outcome) : Prop where
  unread : o.unread = []
  prompts : o.prompts = lines.length + 1
  /-- Where no file can have the name of the history file, the loop is left in the middle. -/
  last : ∃ last, Continues showPrompt lines s last ∧
    o.session.history.entries = last.history.entries ∧
    if last.misnamesHistory then o.result = .error .embeddedNull ∧ o.phase = .reading
    else o.result = .ok ending.code ∧ o.phase = .terminated ∧ o.session.Saved

/-- The loop has ended at the first line that asks the shell to stop. After the history has been
saved, nothing but programs that earlier lines have left does something. -/
structure Stopped (showPrompt : Session → Session) (lines : List String) (s : Session)
    (o : Outcome) : Prop where
  phase : o.phase = .terminated
  line : ∃ before line code last saved left, lines = before ++ line :: o.unread ∧
    o.prompts = before.length + 1 ∧ Continues showPrompt before s last ∧ o.result = .ok code ∧
    Shell.execute (showPrompt last) line = (.error (.exit code), o.session) ∧
    saved.Saved ∧ Pipeline.Leaves saved left ∧ o.session = { left with lastStatus := code } ∧
    (last.world.tasks = [] → o.session.Saved)

/-- What the end of the input leaves behind. -/
theorem ranOut_terminate (hshow : Prompts showPrompt) (ending : InputEnd) (s : Session) :
    RanOut showPrompt ending [] s (terminate ending (showPrompt s)) := by
  obtain ⟨screen, hscreen⟩ := hshow s
  have hentries := entries_terminate ending (showPrompt s)
  have hflush := ((showPrompt s).display .out "\n").flushHistory_fst
  have hnamed : ((showPrompt s).display .out "\n").misnamesHistory = s.misnamesHistory :=
    Session.misnamesHistory_of_standing (by rw [hscreen]; rfl)
  rw [show (showPrompt s).history.entries = s.history.entries by rw [hscreen]] at hentries
  rw [hnamed] at hflush
  have hsaved (s' : Session) := @Session.saved_flushHistory ((showPrompt s).display .out "\n") s'
  unfold terminate at hentries ⊢
  generalize ((showPrompt s).display .out "\n").flushHistory = flushed at hentries hflush hsaved ⊢
  obtain ⟨result, s'⟩ := flushed
  dsimp only at hflush
  cases hnull : s.misnamesHistory with
  | true =>
    obtain rfl : result = _ := by simpa [hnull] using hflush
    exact ⟨rfl, rfl, s, .nil s, hentries, by simp [hnull]⟩
  | false =>
    obtain rfl : result = _ := by simpa [hnull] using hflush
    exact ⟨rfl, rfl, s, .nil s, hentries, by simpa [hnull] using hsaved s' rfl⟩

/-- What a line leaves behind that asks the shell to stop. -/
theorem stopped_execute (hshow : Prompts showPrompt) {line : String} {rest : List String}
    {code : Int} {s s' : Session}
    (h : Shell.execute (showPrompt s) line = (.error (.exit code), s')) :
    Stopped showPrompt (line :: rest) s
      { session := s', result := .ok code, phase := .terminated, unread := rest,
        prompts := 1 } := by
  obtain ⟨saved, left, -, hsaves, hleaves, rfl⟩ := Shell.execute_saves h
  obtain ⟨screen, hscreen⟩ := hshow s
  have htasks : saved.world.tasks = s.world.tasks := hsaves.tasks.trans (by rw [hscreen])
  obtain ⟨before, -, -, -, hflush⟩ := hsaves
  have hsaved := Session.saved_flushHistory hflush
  refine ⟨rfl, [], line, code, s, saved, left, rfl, rfl, .nil s, rfl, h, hsaved, hleaves, rfl,
    fun hnone => ?_⟩
  exact hsaved.congr (hleaves.rests (htasks.trans hnone)).files hleaves.standing

theorem RanOut.prompted {line : String} {rest : List String} {s s' : Session} {o : Outcome}
    (h : RanOut showPrompt ending rest s' o)
    (hnext : ∀ {before last}, Continues showPrompt before s' last →
      Continues showPrompt (line :: before) s last) :
    RanOut showPrompt ending (line :: rest) s o.prompted := by
  obtain ⟨hunread, hprompts, last, hlast, hends⟩ := h
  exact ⟨hunread, congrArg (· + 1) hprompts, last, hnext hlast, hends⟩

theorem Stopped.prompted {line : String} {rest : List String} {s s' : Session} {o : Outcome}
    (h : Stopped showPrompt rest s' o)
    (hnext : ∀ {before last}, Continues showPrompt before s' last →
      Continues showPrompt (line :: before) s last) :
    Stopped showPrompt (line :: rest) s o.prompted := by
  obtain ⟨hphase, before, stop, code, last, saved, left, rfl, hprompts, hlast, hends⟩ := h
  exact ⟨hphase, line :: before, stop, code, last, saved, left, rfl, congrArg (· + 1) hprompts,
    hnext hlast, hends⟩

theorem Faultless.rest {line : String} {rest : List String} {s s' : Session}
    (h : Faultless showPrompt (line :: rest) s)
    (hnext : ∀ {before last}, Continues showPrompt before s' last →
      Continues showPrompt (line :: before) s last) :
    Faultless showPrompt rest s' := fun before stop after last f heq hlast =>
  h (line :: before) stop after last f (by rw [heq]; rfl) (hnext hlast)

/-- The loop ends with the input or at the first line that asks the shell to stop, if no line
faults; the history has been saved in its file. -/
theorem run_departs (hshow : Prompts showPrompt) (ending : InputEnd) (lines : List String)
    (s : Session) (hfaultless : Faultless showPrompt lines s) :
    RanOut showPrompt ending lines s (run showPrompt ending lines s) ∨
      Stopped showPrompt lines s (run showPrompt ending lines s) := by
  induction lines generalizing s with
  | nil => exact .inl (ranOut_terminate hshow ending s)
  | cons line rest ih =>
    have hfirst (f : Fault) := hfaultless [] line rest s f rfl (.nil s)
    rw [run]
    rcases he : Shell.execute (showPrompt s) line with ⟨(code | _ | f) | status, s'⟩
    · exact .inr (stopped_execute hshow he)
    · have hnext {before : List String} {last : Session} (h : Continues showPrompt before
          { s'.display .err "\n" with lastStatus := 130 } last) := Continues.interrupted he h
      exact (ih _ (hfaultless.rest hnext)).imp (·.prompted hnext) (·.prompted hnext)
    · exact absurd (by rw [he]) (hfirst f)
    · have hnext {before : List String} {last : Session}
          (h : Continues showPrompt before s' last) :=
        Continues.returned he h
      exact (ih _ (hfaultless.rest hnext)).imp (·.prompted hnext) (·.prompted hnext)

theorem faultless_nil (s : Session) : Faultless showPrompt [] s := by
  intro before line after last f heq
  simp at heq

/-- A line that asks the shell to stop is the last one that the loop comes to. -/
theorem faultless_of_exit {line : String} {rest : List String} {code : Int} {s s' : Session}
    (h : Shell.execute (showPrompt s) line = (.error (.exit code), s')) :
      Faultless showPrompt (line :: rest) s := by
  intro before stop after last f heq hlast
  cases hlast with
  | nil =>
    obtain ⟨rfl, -⟩ := List.cons.inj heq
    simp [h]
  | returned hline _ =>
    obtain ⟨rfl, -⟩ := List.cons.inj heq
    cases h.symm.trans hline
  | interrupted hline _ =>
    obtain ⟨rfl, -⟩ := List.cons.inj heq
    cases h.symm.trans hline

theorem faultless_of_returned {line : String} {rest : List String} {status : Int} {s s' : Session}
    (h : Shell.execute (showPrompt s) line = (.ok status, s'))
    (hrest : Faultless showPrompt rest s') : Faultless showPrompt (line :: rest) s := by
  intro before stop after last f heq hlast
  cases hlast with
  | nil =>
    obtain ⟨rfl, -⟩ := List.cons.inj heq
    simp [h]
  | returned hline hbefore =>
    obtain ⟨rfl, hlines⟩ := List.cons.inj heq
    cases h.symm.trans hline
    exact hrest _ _ _ _ f hlines hbefore
  | interrupted hline _ =>
    obtain ⟨rfl, -⟩ := List.cons.inj heq
    cases h.symm.trans hline

theorem execute_help (s : Session) : ∃ s', Shell.execute s "help" = (.ok 0, s') := by
  have hstrip : Text.strip "help" = "help" := by decide
  have hhelp : Shell.asksForHelp "help" = true := by decide
  exact ⟨_, by rw [Shell.execute, hstrip, if_neg (by decide), if_pos hhelp]⟩

/-- A session that keeps no history. -/
def forgetful : Session := { remembering [] with environment := {} }

theorem execute_forgetful : ∃ s', Shell.execute forgetful "exit 3" = (.error (.exit 3), s') := by
  have hcalm : Shell.endsInFault (Shell.execute forgetful "exit 3").1 = false := by decide +kernel
  have hblank : Text.strip "exit 3" ≠ "" := by decide +kernel
  have hhelp : Shell.asksForHelp (Text.strip "exit 3") = false := by decide +kernel
  have hparse : Stage.parse forgetful (Text.strip "exit 3") =
      .ok [{ command := "exit", args := ["3"], target := .builtin .exit, text := "exit 3" }] := by
        decide +kernel
  have hopen : (Pipeline.openRedirections forgetful {}).1 =
      .ok { outlets := .ofSession forgetful } := rfl
  have hcode : Builtin.exitCode ["3"] = 3 := by decide +kernel
  have hends := Shell.execute_of_exit hblank hhelp hparse rfl hopen
  rw [hcode] at hends
  generalize Shell.execute forgetful "exit 3" = executed at hcalm hends
  obtain ⟨result, s'⟩ := executed
  obtain rfl | ⟨f, rfl⟩ := hends
  · exact ⟨s', rfl⟩
  · cases hcalm

/-- The help is shown, and then the session is left by an interrupt at the prompt; another one is
left by `exit`, and what comes after is not read. -/
theorem run_departs_help :
    RanOut id .interrupt ["help"] (remembering []) (run id .interrupt ["help"] (remembering [])) ∧
      Stopped id ["exit 3", "pwd"] forgetful
        (run id .endOfInput ["exit 3", "pwd"] forgetful) := by
  obtain ⟨s', hhelp⟩ := execute_help (remembering [])
  obtain ⟨left, hexit⟩ := execute_forgetful
  constructor
  · obtain hran | hstopped := run_departs prompts_id .interrupt ["help"] (remembering [])
      (faultless_of_returned hhelp (faultless_nil s'))
    · exact hran
    · obtain ⟨before, line, code, last, -, -, hlines, -, hlast, -, hline, -⟩ := hstopped.line
      obtain _ | ⟨first, before⟩ := before
      · obtain ⟨rfl, -⟩ := List.cons.inj hlines
        cases hlast
        cases hhelp.symm.trans hline
      · simp at hlines
  · obtain hran | hstopped := run_departs prompts_id .endOfInput ["exit 3", "pwd"]
      forgetful (faultless_of_exit hexit)
    · obtain ⟨last, hlast, -⟩ := hran.last
      cases hlast with
      | returned hline _ => cases hexit.symm.trans hline
      | interrupted hline _ => cases hexit.symm.trans hline
    · exact hstopped

end Repl

end CommandShell
