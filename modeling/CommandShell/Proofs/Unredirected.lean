import CommandShell.Proofs.Ledger.Ends
import CommandShell.Proofs.Unseen

/-!
# Redirections of earlier stages

Only the redirections of the last stage are looked at. A pipeline does the same whatever those of
the stages before it are; so they make, empty and fill no file, and move no output.

## Main statements

- `Pipeline.run_unredirected`: a pipeline without the redirections of the stages before the last.
-/

namespace CommandShell

/-- A stage without its redirections. -/
def Stage.unredirected (stage : Stage) : Stage := { stage with redirections := {} }

namespace Pipeline

/-- A run does not see the redirections of the stages that are written down. -/
def Change.unredirected : Change where
  stages l := l.map Stage.unredirected
  session := id
  apt _ := True
  upkeep _ _ _ _ := trivial
  commands l := by simp [Stage.unredirected]
  kernel _ := rfl
  environment _ := rfl
  interrupts _ := rfl
  input _ := rfl
  start _ _ _ _ := rfl
  setInterrupts _ _ := rfl
  note _ _ _ _ _ := rfl
  onKernel _ _ := rfl
  absorb _ := rfl
  write _ _ _ _ := rfl
  writeBytes _ _ _ _ := rfl
  flush _ _ _ := rfl
  close _ _ _ := rfl

namespace Run

variable {r : Run} {i : Nat}

/-- A stage before the last is given its descriptors whether its errors follow its output or not. -/
theorem descriptorsFor_of_not_isLast (hi : r.isLast i = false) (merges : Bool) :
    r.descriptorsFor i merges = r.descriptorsFor i false := by
  simp [descriptorsFor, hi]

theorem spawn_unredirected (hi : r.isLast i = false) (stage : Stage) :
    r.spawn i stage.unredirected = r.spawn i stage := by
  have hprogram (path : Path) :
      r.spawnProgram i stage.unredirected path = r.spawnProgram i stage path := by
    unfold spawnProgram
    rw [descriptorsFor_of_not_isLast hi, descriptorsFor_of_not_isLast hi stage.redirections.merges]
    rfl
  have htarget : stage.unredirected.target = stage.target := rfl
  unfold spawn
  rw [htarget]
  split
  · rfl
  · rfl
  · exact hprogram _

/-- The stages of a list without their redirections, each with its position. -/
def unredirected (indexed : List (Stage × Nat)) : List (Stage × Nat) :=
  indexed.map fun x => (x.1.unredirected, x.2)

theorem spawnAll_unredirected {indexed : List (Stage × Nat)}
    (hi : ∀ x ∈ indexed, r.isLast x.2 = false) (more : List (Stage × Nat)) :
      spawnAll (unredirected indexed ++ more) r = spawnAll (indexed ++ more) r := by
  induction indexed generalizing r with
  | nil => rfl
  | cons x rest ih =>
    have hfirst := spawn_unredirected (hi x List.mem_cons_self) x.1
    have hstages := r.stages_spawn x.2 x.1
    simp only [unredirected, List.map_cons, List.cons_append, spawnAll] at ih ⊢
    rw [hfirst]
    generalize r.spawn x.2 x.1 = spawned at hstages
    obtain ⟨_ | halt, r'⟩ := spawned
    · have hsame (i : Nat) : r'.isLast i = r.isLast i :=
        congrArg (fun l : List Stage => decide (i + 1 = l.length)) hstages
      exact ih fun y hy => (hsame _).trans (hi y (List.mem_cons_of_mem _ hy))
    · rfl

variable {capture : Builtin.Capture}

theorem runBuiltins_unredirected (indexed more : List (Stage × Nat)) (r : Run) :
    runBuiltins capture (unredirected indexed ++ more) r =
      runBuiltins capture (indexed ++ more) r := by
  induction indexed generalizing r with
  | nil => rfl
  | cons x rest ih =>
    have htarget : x.1.unredirected.target = x.1.target := rfl
    have hfirst (b : Builtin) :
        r.runBuiltin capture x.2 x.1.unredirected b = r.runBuiltin capture x.2 x.1 b := rfl
    simp only [unredirected, List.map_cons, List.cons_append, runBuiltins, htarget, hfirst] at ih ⊢
    split
    · exact ih r
    · next b _ =>
      rcases r.runBuiltin capture x.2 x.1 b with ⟨_ | halt, r'⟩
      · exact ih r'
      · rfl

theorem interruptBuiltins_unredirected (indexed more : List (Stage × Nat)) (r : Run) :
    r.interruptBuiltins (unredirected indexed ++ more) = r.interruptBuiltins (indexed ++ more) := by
  induction indexed generalizing r with
  | nil => rfl
  | cons x rest ih =>
    have hfirst : x.1.unredirected.isBuiltin = x.1.isBuiltin := rfl
    simp only [unredirected, List.map_cons, List.cons_append, interruptBuiltins, hfirst] at ih ⊢
    exact ih _

end Run

theorem runFrom_unredirected {capture : Builtin.Capture} {r : Run} {indexed : List (Stage × Nat)}
    (hi : ∀ x ∈ indexed, r.isLast x.2 = false) (more : List (Stage × Nat)) :
    runFrom capture (Run.unredirected indexed ++ more) r = runFrom capture (indexed ++ more) r := by
  unfold runFrom
  simp only [Run.spawnAll_unredirected hi, Run.runBuiltins_unredirected,
    Run.interruptBuiltins_unredirected]

theorem zipIdx_concat (earlier : List Stage) (last : Stage) :
    (earlier ++ [last]).zipIdx = earlier.zipIdx ++ [(last, earlier.length)] := by
  simp [List.zipIdx_append]

/-- The stages before the last are not the last. -/
theorem isLast_init {s : Session} {earlier : List Stage} {last : Stage} {wiring : Wiring}
    {x : Stage × Nat} (hx : x ∈ earlier.zipIdx) :
    (Run.init s (earlier ++ [last]) wiring).isLast x.2 = false := by
  have hlt := List.snd_lt_of_mem_zipIdx hx
  simp only [Run.isLast, Run.init, Ledger.ofStages, List.length_append, List.length_singleton,
    decide_eq_false_iff_not]
  omega

/-- Stages whose files are open are run in the same way whatever redirections those before the last
have. -/
theorem runWired_unredirected (capture : Builtin.Capture) (s : Session) (earlier : List Stage)
    (last : Stage) (wiring : Wiring) :
      runWired capture s (earlier.map Stage.unredirected ++ [last]) wiring =
      runWired capture s (earlier ++ [last]) wiring := by
  let v : Change := .unredirected
  have hunseen : Builtin.Unseen capture v.apt v.session := Builtin.unseen_id capture
  -- what is written down of the stages differs in what a run does not see
  have hstart : (Run.init s (earlier.map Stage.unredirected ++ [last]) wiring).changed v =
      (Run.init s (earlier ++ [last]) wiring).changed v := by
    have hstages : v.stages (earlier.map Stage.unredirected ++ [last]) =
        v.stages (earlier ++ [last]) := by
      simp [v, Change.unredirected, Stage.unredirected]
    rw [← Run.init_changed, ← Run.init_changed, hstages]
  have hsame (o : Outcome) : o.changed v = o := rfl
  have hindexed : (earlier.map Stage.unredirected).zipIdx = Run.unredirected earlier.zipIdx := by
    simp [Run.unredirected, List.zipIdx_map, Prod.map]
  rw [runWired_eq_runFrom, runWired_eq_runFrom, zipIdx_concat, zipIdx_concat, hindexed,
    List.length_map]
  rw [← hsame (runFrom _ _ _), ← runFrom_changed hunseen _ trivial, hstart,
    runFrom_changed hunseen _ trivial, hsame]
  exact runFrom_unredirected (fun x hx => isLast_init hx) _

/-- A pipeline does the same whatever redirections the stages before the last have. -/
theorem run_unredirected (capture : Builtin.Capture) (s : Session) (earlier : List Stage)
    (last : Stage) :
    run capture s (earlier.map Stage.unredirected ++ [last]) =
      run capture s (earlier ++ [last]) := by
  unfold run
  simp only [List.getLast?_concat]
  rcases openRedirections s last.redirections with ⟨f | wiring, s'⟩
  · cases f <;> simp [unrun, Function.comp_def]
  · exact runWired_unredirected capture s' earlier last wiring

end Pipeline

end CommandShell
