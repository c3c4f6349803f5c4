import CommandShell.Pump

/-!
# Draining the pump

The pump is drained until it has seen the end of every stream that was attached. When the ends that
are queued are as many as the streams that have not been seen to end, it never waits in vain.

## Main statements

- `Pump.drain_invariant`: what writing a chunk keeps is kept while the pump is drained.
- `Pump.drain_map`: draining commutes with a map of what is written to.
- `Pump.drain_takes`: the pump is drained from the front of its queue, and writes the chunks in
  order.
- `Pump.drain_stop`: why the consumer stopped.
- `Pump.drain_resume`: an interruption between two items does not matter.
- `Pump.drain_balanced`: a balanced pump is not starved, and it is balanced when it stops.
-/

namespace CommandShell.Pump

variable {κ τ : Type} {write : κ → Bytes → τ → τ}

/-- What writing a chunk keeps is kept while the pump is drained. -/
theorem drain_invariant {P : τ → Prop} (hwrite : ∀ sink chunk x, P x → P (write sink chunk x))
    (p : Pump κ) (budget : Option Nat) {x : τ} (h : P x) : P (p.drain write budget x).2.1 := by
  unfold drain
  generalize p.queue = queue
  generalize p.active = active
  fun_induction drainQueue write queue budget active x with
  | case1 | case2 | case3 => exact h
  | case4 _ _ _ _ _ _ ih => exact ih h
  | case5 _ _ _ _ _ _ _ ih => exact ih (hwrite _ _ _ h)

/-- Writing to a state that is mapped to another one comes to the image of what it comes to. -/
theorem drain_map {f : τ → τ}
    (hwrite : ∀ sink chunk x, write sink chunk (f x) = f (write sink chunk x)) (p : Pump κ)
    (budget : Option Nat) (x : τ) : p.drain write budget (f x) =
      ((p.drain write budget x).1, f (p.drain write budget x).2.1,
        (p.drain write budget x).2.2) := by
  unfold drain
  generalize p.queue = queue
  generalize p.active = active
  fun_induction drainQueue write queue budget active x with
  | case1 | case2 | case3 => simp only [drainQueue]
  | case4 _ _ _ _ _ hbudget ih =>
    rw [drainQueue]
    · exact ih
    · exact hbudget
  | case5 _ _ _ _ _ _ hbudget ih =>
    rw [drainQueue, hwrite]
    · exact ih
    · exact hbudget

/-- Write the chunks among items, in order. -/
def writeAll (write : κ → Bytes → τ → τ) : List (κ × Option Bytes) → τ → τ
  | [], x => x
  | (_, none) :: rest, x => writeAll write rest x
  | (sink, some chunk) :: rest, x => writeAll write rest (write sink chunk x)

theorem writeAll_append (items items' : List (κ × Option Bytes)) (x : τ) :
    writeAll write (items ++ items') x = writeAll write items' (writeAll write items x) := by
  fun_induction writeAll write items x with
  | case1 => rfl
  | case2 _ _ _ ih => simpa only [List.cons_append, writeAll] using ih
  | case3 _ _ _ _ ih => simpa only [List.cons_append, writeAll] using ih

/-- The pump is drained from the front of its queue: the chunks that are taken out are written in
order, and every end that is taken out is one stream less to wait for. -/
theorem drain_takes (write : κ → Bytes → τ → τ) (p : Pump κ) (budget : Option Nat)
    (x : τ) : ∃ taken, p.queue = taken ++ (p.drain write budget x).1.queue ∧
      (p.drain write budget x).2.1 = writeAll write taken x ∧
      p.active = (p.drain write budget x).1.active + taken.countP fun item => item.2.isNone := by
  unfold drain
  generalize p.queue = queue
  generalize p.active = active
  fun_induction drainQueue write queue budget active x with
  | case1 | case2 | case3 => exact ⟨[], rfl, rfl, rfl⟩
  | case4 sink _ _ _ _ _ ih =>
    obtain ⟨taken, hqueue, hwritten, hactive⟩ := ih
    refine ⟨(sink, none) :: taken, congrArg _ hqueue, hwritten, ?_⟩
    rw [List.countP_cons_of_pos rfl]
    omega
  | case5 sink chunk _ _ _ _ _ ih =>
    obtain ⟨taken, hqueue, hwritten, hactive⟩ := ih
    refine ⟨(sink, some chunk) :: taken, congrArg _ hqueue, hwritten, ?_⟩
    rw [List.countP_cons_of_neg (by simp)]
    exact hactive

/-- The consumer stops when no stream is left, and else for want of a budget or of something to take
out. -/
theorem drain_stop (write : κ → Bytes → τ → τ) (p : Pump κ) (budget : Option Nat) (x : τ) :
    match (p.drain write budget x).2.2 with
    | .drained _ => (p.drain write budget x).1.active = 0
    | .interrupted => 0 < (p.drain write budget x).1.active
    | .starved =>
      0 < (p.drain write budget x).1.active ∧ (p.drain write budget x).1.queue = [] := by
  unfold drain
  generalize p.queue = queue
  generalize p.active = active
  fun_induction drainQueue write queue budget active x with
  | case1 => rfl
  | case2 => exact Nat.succ_pos _
  | case3 => exact ⟨Nat.succ_pos _, rfl⟩
  | case4 _ _ _ _ _ _ ih => exact ih
  | case5 _ _ _ _ _ _ _ ih => exact ih

/-- A consumer that is interrupted and called again does what it does without the interruption. -/
theorem drain_resume (write : κ → Bytes → τ → τ) (p : Pump κ) (n m : Nat) (x : τ) :
    p.drain write (some (n + m)) x =
      match p.drain write (some n) x with
      | (p', x', .interrupted) => p'.drain write (some m) x'
      | (p', x', .drained left) => (p', x', .drained (left.map (· + m)))
      | (p', x', .starved) => (p', x', .starved) := by
  unfold drain
  generalize p.queue = queue
  generalize p.active = active
  induction queue generalizing n x active with
  | nil => cases active <;> cases n <;> simp [drainQueue]
  | cons item rest ih =>
    obtain ⟨sink, item⟩ := item
    cases active with
    | zero => simp [drainQueue]
    | succ active =>
      cases n with
      | zero => simp [drainQueue]
      | succ n =>
        rw [Nat.add_right_comm]
        cases item with
        | none => simpa [drainQueue] using ih n x active
        | some chunk => simpa [drainQueue] using ih n (write sink chunk x) (active + 1)

/-- How many ends of streams are queued. -/
def ends (p : Pump κ) : Nat := p.queue.countP fun item => item.2.isNone

@[simp] theorem ends_attach (p : Pump κ) : p.attach.ends = p.ends := rfl

@[simp] theorem ends_post (p : Pump κ) (sink : κ) (chunk : Bytes) :
    (p.post sink chunk).ends = p.ends := by
  simp [ends, post]

@[simp] theorem ends_finish (p : Pump κ) (sink : κ) : (p.finish sink).ends = p.ends + 1 := by
  simp [ends, finish]

/-- Chunks do not change what the pump waits for. -/
theorem posts_balanced (chunks : List (κ × Bytes)) (p : Pump κ) :
    (chunks.foldl (fun p (sink, chunk) => p.post sink chunk) p).active = p.active ∧
      (chunks.foldl (fun p (sink, chunk) => p.post sink chunk) p).ends = p.ends := by
  induction chunks generalizing p with
  | nil => exact ⟨rfl, rfl⟩
  | cons c rest ih => simpa using ih (p.post c.1 c.2)

theorem finishes_balanced {α : Type} (streams : List α) (sink : α → κ) (p : Pump κ) :
    (streams.foldl (fun p s => p.finish (sink s)) p).active = p.active ∧
      (streams.foldl (fun p s => p.finish (sink s)) p).ends = p.ends + streams.length := by
  induction streams generalizing p with
  | nil => exact ⟨rfl, rfl⟩
  | cons s rest ih =>
    obtain ⟨hactive, hends⟩ := ih (p.finish (sink s))
    refine ⟨hactive, hends.trans ?_⟩
    rw [ends_finish, List.length_cons]
    omega

/-- A balanced pump is not starved, and it is balanced when it stops. -/
theorem drain_balanced (write : κ → Bytes → τ → τ) {p : Pump κ} (hp : p.active = p.ends)
    (budget : Option Nat) (x : τ) :
    (p.drain write budget x).1.active = (p.drain write budget x).1.ends ∧
      (p.drain write budget x).2.2 ≠ .starved := by
  unfold ends at hp ⊢
  unfold drain
  generalize p.queue = queue at hp ⊢
  generalize p.active = active at hp ⊢
  fun_induction drainQueue write queue budget active x with
  | case1 | case2 => exact ⟨hp, by simp⟩
  | case3 => cases hp
  | case4 _ _ _ _ _ _ ih => exact ih (by simpa using hp)
  | case5 _ _ _ _ _ _ _ ih => exact ih (by simpa using hp)

/-- Without a budget the pump is not interrupted, and no budget comes of it. -/
theorem drain_unbounded (p : Pump κ) (x : τ) :
    (p.drain write none x).2.2 ≠ .interrupted ∧
      ∀ left, (p.drain write none x).2.2 = .drained left → left = none := by
  unfold drain
  generalize p.queue = queue
  generalize p.active = active
  generalize hbudget : (none : Option Nat) = budget
  fun_induction drainQueue write queue budget active x with
  | case1 => exact ⟨by simp, fun left h => by rw [← Stop.drained.inj h, ← hbudget]⟩
  | case2 => cases hbudget
  | case3 => exact ⟨by simp, fun _ h => nomatch h⟩
  | case4 _ _ _ _ _ _ ih => simpa [← hbudget] using ih
  | case5 _ _ _ _ _ _ _ ih => simpa [← hbudget] using ih

end CommandShell.Pump
