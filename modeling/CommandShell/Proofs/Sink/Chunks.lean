import CommandShell.Proofs.Text.Replacement
import CommandShell.Sink

/-!
# Bytes in chunks

A buffer decodes what it is given across the chunks in which it arrives, and a character that is
begun waits for its other bytes. So what it holds in the end depends on the bytes alone.

## Main statements

- `Sink.given_eq`: a buffer that has been given some chunks.
- `Sink.given_reads`: what a buffer holds before and after it is closed.
-/

namespace CommandShell.Sink

/-- A buffer that has been given chunks of bytes. -/
def given (chunks : List Bytes) : Sink Memory :=
  chunks.foldl (fun s chunk => (s.writeBytes chunk ()).1) buffer

/-- An open buffer with a text and a character that is pending. -/
def holding (progress : String × Utf8.Pending) : Sink Memory :=
  { stream := ⟨progress.1⟩, pending := progress.2 }

/-- Bytes add the text that they complete. -/
theorem writeBytes_holding (text : String) (p : Utf8.Pending) (bytes : Bytes) :
    ((holding (text, p)).writeBytes bytes ()).1 =
      holding (text ++ (Utf8.feed p bytes).1, (Utf8.feed p bytes).2) := by
  unfold writeBytes
  dsimp only [holding]
  split
  · next hempty =>
    have hnone : (Utf8.feed p bytes).1 = "" := by simpa using hempty
    simp [hnone]
  · rfl

/-- A buffer has decoded its bytes as if they had come at once. -/
theorem given_eq (chunks : List Bytes) :
    given chunks = holding (Utf8.feed .none chunks.flatten) := by
  have hfold (before : Bytes) : chunks.foldl (fun s chunk => (s.writeBytes chunk ()).1)
      (holding (Utf8.feed .none before)) =
        holding (Utf8.feed .none (before ++ chunks.flatten)) := by
    induction chunks generalizing before with
    | nil => simp
    | cons chunk rest ih =>
      rw [List.foldl_cons, writeBytes_holding, ← Utf8.feed_append, ih, List.flatten_cons,
        List.append_assoc]
  exact hfold []

/-- Closing a buffer adds what is left of a character. -/
theorem close_holding (text : String) (p : Utf8.Pending) :
    ((holding (text, p)).close ()).1.stream.text = text ++ String.ofList (Utf8.finish p) := by
  cases p with
  | none => simp [close, holding, Utf8.finish, flush, isDead, settle, TextStream.flush]
  | need | surrogate => rfl

/-- A buffer that has been given bytes and closed holds what they are read as, with the bytes that
encode nothing replaced, however they were cut. Before that it lacks at most the replacement of the
bytes that came last. -/
theorem given_reads (chunks : List Bytes) :
    let before := (given chunks).stream.text
    let value := ((given chunks).close ()).1.stream.text
    value = Utf8.decode chunks.flatten ∧ (∀ cs, Utf8.Reads chunks.flatten cs ↔ cs = value.toList) ∧
      ∃ missing ≤ 2, value.toList = before.toList ++ List.replicate missing Utf8.replacement := by
  intro before value
  have hvalue : value = Utf8.decode chunks.flatten := by
    simp only [value]
    rw [given_eq, close_holding, ← Utf8.decode_eq_feed]
  refine ⟨hvalue, fun cs => hvalue ▸ Utf8.reads_iff .., ?_⟩
  have hbefore : before = (Utf8.feed .none chunks.flatten).1 := by
    simp only [before]
    rw [given_eq]
    rfl
  rw [hvalue, hbefore, Utf8.decode_eq_feed, String.toList_append, String.toList_ofList]
  cases (Utf8.feed .none chunks.flatten).2 with
  | none => exact ⟨0, by decide, rfl⟩
  | need => exact ⟨1, by decide, rfl⟩
  | surrogate => exact ⟨2, by decide, rfl⟩

/-- A character that is cut, a byte that encodes nothing, and a character that lacks its end. -/
example : (given [[0xC3], [], [0xA9, 0xFF, 0xE2], [0x82]]).stream.text = "é\uFFFD" ∧
    ((given [[0xC3], [], [0xA9, 0xFF, 0xE2], [0x82]]).close ()).1.stream.text =
      "é\uFFFD\uFFFD" := by
  decide

end CommandShell.Sink
