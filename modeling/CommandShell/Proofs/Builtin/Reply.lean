import CommandShell.Proofs.Builtin.Edits

/-!
# Replies of builtins

All builtins but the one that asks a chat model do what they do as one reply: they change the
session and then write, one text after the other. What they write does not depend on who takes it.

## Main statements

- `Builtin.runFor_eq_take`: a builtin hands its reply to its host.
- `Builtin.edited_run`: the session of the reply is an edited one.
-/

namespace CommandShell.Builtin

variable {σ : Type}

/-- The host that keeps what is written has been given it all. -/
theorem foldl_keeper (writes kept : List Emission) (s : Session) :
    writes.foldl (fun x e => keeper.write e.1 e.2 x) (s, kept) = (s, kept ++ writes) := by
  induction writes generalizing kept with
  | nil => simp
  | cons e rest ih => simpa [keeper] using ih (kept ++ [e])

theorem take_keeper (reply : Reply) (s : Session) :
    keeper.take reply (s, []) = (reply.ending, reply.session, reply.writes) :=
  congrArg (Prod.mk reply.ending) (foldl_keeper reply.writes [] reply.session)

/-- A builtin that hands a reply to the host that keeps what is written has replied with it. -/
theorem run_eq_of_take {capture : Capture} {b : Builtin} {args : List String} {s : Session}
    {reply : Reply} (h : b.runFor keeper capture args (s, []) = keeper.take reply (s, [])) :
      b.run capture s args = reply := by
  unfold run
  rw [h, take_keeper]

/-- What the lines of a listing are as texts on a channel. -/
def emissions (channel : Channel) (lines : List CodeUnits) : List Emission :=
  lines.map fun line => (channel, line.text)

theorem writeLines_keeper (channel : Channel) (lines : List CodeUnits) (s : Session)
    (kept : List Emission) :
    keeper.writeLines channel lines (s, kept) = (.ok 0, s, kept ++ emissions channel lines) := by
  induction lines generalizing kept with
  | nil => simp [Host.writeLines, emissions]
  | cons line rest ih =>
    simpa [Host.writeLines, Host.writeUnits, keeper, emissions]
      using ih (kept ++ [(channel, line.text)])

/-- Lines that are all written are written one after the other. -/
theorem writeLines_eq_foldl {h : Host σ} {channel : Channel} {lines : List CodeUnits} {x : σ}
    (hok : ∀ f, (h.writeLines channel lines x).1 ≠ .error (.fault f)) :
    h.writeLines channel lines x =
      (.ok 0, (emissions channel lines).foldl (fun x e => h.write e.1 e.2 x) x) := by
  induction lines generalizing x with
  | nil => rfl
  | cons line rest ih =>
    unfold Host.writeLines Host.writeUnits at hok ⊢
    by_cases hc : h.encodes channel x && line.letters.any CodeUnits.Letter.isHalf
    · simp [hc] at hok
    · simp only [hc] at hok ⊢
      exact ih hok

/-- A builtin other than the one that asks a chat model hands its reply to its host. -/
theorem runFor_eq_take {h : Host σ} (hset : ∀ x, h.setSession (h.session x) x = x)
    {capture : Capture} {b : Builtin} (hb : b ≠ .ai) {args : List String} {x : σ}
    (hok : ∀ f, (b.runFor h capture args x).1 ≠ .error (.fault f)) :
    b.runFor h capture args x = h.take (b.run capture (h.session x) args) x := by
  have hreply (reply : Reply) : keeper.take reply (h.session x, []) =
      (reply.ending, reply.session, reply.writes) := take_keeper reply _
  have hs : keeper.session (h.session x, []) = h.session x := rfl
  unfold run
  cases b with
  | ai => exact absurd rfl hb
  | config =>
    simp only [runFor, runConfig, hs] at hok ⊢
    split at hok
    · simp only [hreply]
    · rw [writeLines_eq_foldl hok, writeLines_keeper]
      simp only [Host.take, hset, List.nil_append]
    · split <;> simp only [hreply]
    · simp only [hreply]
    · simp only [hreply]
  | _ => simp only [runFor, hs, hreply]

/-- A builtin other than the one that asks a chat model changes a session by itself. -/
theorem edited_run (capture : Capture) {b : Builtin} (hb : b ≠ .ai) (s : Session)
    (args : List String) : s.Edited (b.run capture s args).session := by
  have hk : keeper.Takes fun x => s.Edited x.1 := {
    write := fun _ _ _ hx => hx
    setSession := fun _ _ hs hx => hx.trans hs }
  exact runFor_takes hk hb args (.refl s)

end CommandShell.Builtin
