import CommandShell.Proofs.FileSystem.Storage
import CommandShell.Proofs.Kernel.Request

/-!
# Opening files

What is opened for reading stays as it is. What is opened for writing is made if it is missing, is
emptied if that is asked for, and is new among the open files.

## Main statements

- `Kernel.openText_cases`: what opening a file does.
- `Process.Avoids`: a process that opens nothing at a place for writing.
-/

namespace CommandShell

open FileSystem (Leads IsPlain SameBut)

/-- Whether a file that is opened so may be made, emptied or written to. -/
def Access.alters (a : Access) : Bool := a.write || a.create || a.truncate

/-- What is opened stands somewhere else than at a place, and is no descriptor. -/
def FileSystem.Misses (fs : FileSystem) (place base : Place) (text : String)
    (access : Access) : Prop :=
  (∀ found node, fs.locateText (if access.create then .create else .follow) base text =
    .ok (found, node) → found ≠ place) ∧
  ∀ found node, fs.locateText .follow base text = .ok (found, node) →
    Kernel.descriptorAt? found = none

/-- A process that opens nothing at a place for writing, whatever it is answered and however the
files have changed by then. -/
def Process.Avoids (origin : FileSystem) (place : Place) : Process → Prop
  | .exit _ | .exhausted => True
  | .look next => ∀ files, (next files).Avoids origin place
  | .read _ _ _ next => ∀ answer, (next answer).Avoids origin place
  | .drain _ _ next => ∀ bytes, (next bytes).Avoids origin place
  | .write _ _ next => ∀ answer, (next answer).Avoids origin place
  | .openFile base text access _ next =>
    (access.alters → ∀ fs, Leads origin fs → fs.Misses place base text access) ∧
      ∀ answer, (next answer).Avoids origin place
  | .duplicate _ _ next => ∀ answer, (next answer).Avoids origin place
  | .close _ next => (next ()).Avoids origin place
  | .pipe _ _ next => (next ()).Avoids origin place
  | .inspect _ next => ∀ answer, (next answer).Avoids origin place
  | .fork child next => child.Avoids origin place ∧ ∀ pid, (next pid).Avoids origin place
  | .wait _ next => ∀ answer, (next answer).Avoids origin place
  | .sleep _ next => (next ()).Avoids origin place
  | .kill _ _ next => ∀ answer, (next answer).Avoids origin place
  | .dispose _ _ next => (next ()).Avoids origin place
  | .caught next => ∀ signals, (next signals).Avoids origin place
  | .become next => (next ()).Avoids origin place
  | .self next => ∀ pid parent ignored, (next pid parent ignored).Avoids origin place

namespace Kernel

variable {k k' : Kernel}

/-- What opening a file does: what is there is no file and nothing happens, or it is new among the
open files and may have been made or emptied. -/
theorem openText_cases {base : Place} {text : String} {access : Access} {h : Handle}
    (ho : k.openText base text access = .ok (h, k')) :
    (k' = k ∧ (h = .null ∨ h = .directory) ∧ ∃ found node,
      k.files.locateText (if access.create then .create else .follow) base text =
        .ok (found, node) ∧ ¬ IsPlain node) ∨
      ∃ found node files content executable,
        k.files.locateText (if access.create then .create else .follow) base text =
          .ok (found, node) ∧
        h = .file k.nextNumber ∧
        k' = ({ k with files }.addOpened
          { place := found, append := access.append, readable := access.read,
            writable := access.write }).2 ∧
        (access.alters = false → files = k.files) ∧ Leads k.files files ∧
        SameBut found k.files files ∧ files.get? found = some (.file content executable) ∧
        unpack content = if access.truncate then [] else FileSystem.held node := by
  have hmade (found : Place) (hplain : IsPlain (k.files.get? found)) (executable : Bool) :
      Leads k.files ((k.files.set found (.file ByteArray.empty executable)).touch found
        k.fileTime) ∧
        SameBut found k.files ((k.files.set found (.file ByteArray.empty executable)).touch found
          k.fileTime) ∧
        ((k.files.set found (.file ByteArray.empty executable)).touch found k.fileTime).get? found =
          some (.file ByteArray.empty executable) := by
    have hroot : found ≠ [] := by
      rintro rfl
      simp [FileSystem.get?, IsPlain] at hplain
    refine ⟨FileSystem.leads_set hplain _ _ _,
      ⟨fun other hother => ?_, FileSystem.closed_touch ..⟩, ?_⟩
    · rw [FileSystem.get?_touch, FileSystem.get?_set_of_ne _ _ hother]
    · rw [FileSystem.get?_touch, FileSystem.get?_set_self _ _ hroot]
  unfold openText at ho
  extract_lets opened taken at ho
  split at ho
  · cases ho
  · next found hfound =>
    split at ho <;> cases ho
    exact .inl ⟨rfl, .inr rfl, found, _, hfound, id⟩
  · next found hfound =>
    cases ho
    exact .inl ⟨rfl, .inl rfl, found, _, hfound, id⟩
  · next found hfound =>
    cases ho
    exact .inl ⟨rfl, .inl rfl, found, _, hfound, id⟩
  · cases ho
  · next found hfound =>
    have hplain : IsPlain (k.files.get? found) := by
      rw [FileSystem.get?_of_locateText hfound]
      trivial
    split at ho
    · cases ho
    · next hcreate =>
      split at ho
      · cases ho
      · cases ho
        obtain ⟨hleads, hsame, hfile⟩ := hmade found hplain false
        refine .inr ⟨found, none, _, _, _, hfound, rfl, rfl, fun hstill => ?_, hleads,
          hsame, hfile, ?_⟩
        · simp_all [Access.alters]
        · split <;> rfl
  · next found content executable hfound =>
    have hnode := FileSystem.get?_of_locateText hfound
    have hplain : IsPlain (k.files.get? found) := by
      rw [hnode]
      trivial
    split at ho
    · cases ho
    · split at ho
      · next htruncate =>
        cases ho
        obtain ⟨hleads, hsame, hfile⟩ := hmade found hplain executable
        refine .inr ⟨found, _, _, _, _, hfound, rfl, rfl, fun hstill => ?_, hleads,
          hsame, hfile, ?_⟩
        · simp_all [Access.alters]
        · rw [if_pos htruncate]
          rfl
      · next htruncate =>
        cases ho
        refine .inr ⟨found, _, k.files, _, _, hfound, rfl, rfl, fun _ => rfl, .refl _,
          .refl _ _, hnode, ?_⟩
        rw [if_neg htruncate]
        rfl

/-- Opening a file leaves all ways open. -/
theorem leads_openText {base : Place} {text : String} {access : Access} {h : Handle}
    (ho : k.openText base text access = .ok (h, k')) : Leads k.files k'.files := by
  obtain ⟨rfl, -⟩ | ⟨found, node, files, content, executable, -, -, rfl, -, hleads, -⟩ :=
    openText_cases ho
  · exact .refl _
  · exact hleads

@[simp] theorem files_release (k : Kernel) (apart : List Handle) (h : Handle) :
    (k.release apart h).files = k.files := by
  unfold release
  extract_lets isHeld
  split
  · split <;> rfl
  · split <;> rfl
  · split <;> rfl
  · rfl

@[simp] theorem files_letGo (k : Kernel) (h : Handle) : (k.letGo h).files = k.files :=
  files_release _ [] h

@[simp] theorem tasks_letGo (k : Kernel) (h : Handle) : (k.letGo h).tasks = k.tasks :=
  (SameTasks.release _ [] h).tasks

end Kernel

end CommandShell
