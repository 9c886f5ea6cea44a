import BiometricAuth.Driver.Budget

/-!
# Waiting for an operation to stop

`bio_ops_stop_ops` and the loop of `community_ops_stop_by_user`: it looks at `ctrlFlag` every 100 ms
until the operation has come to its end or the time is over, and then looks once more. The values
that it sees are a sequence with one value for each look, which other threads decide.

`World.communityOpsStopByUser` is what the function changes before its loop. An overflow of an `int`
is `none`.

Main result: `stopsAsAsked_iff` — a busy device is waited for as the caller asked exactly if the
milliseconds are an `int`, and an operation that the loop has seen at its end still is at the last
look.
-/

namespace BiometricAuth

variable {π : Type}

/-! ### The functions -/

/-- `CONTROL_FLAG_STOPPED`, `CONTROL_FLAG_DONE` and `CONTROL_FLAG_IDLE`: the operation has come to
its end. -/
def CtrlFlag.IsSettled (flag : CtrlFlag) : Prop := flag = .stopped ∨ flag = .done ∨ flag = .idle

instance decidableIsSettled (flag : CtrlFlag) : Decidable flag.IsSettled :=
  inferInstanceAs (Decidable (_ ∨ _))

/-- The loop from its `k`th look on: `timeused` at its end, and the look it ended with. -/
def stopLoop (timeout : ℤ) (flags : ℕ → CtrlFlag) (timeused : ℤ) (k : ℕ) : Option (ℤ × ℕ) :=
  if ¬ (flags k).IsSettled ∧ timeused < timeout then
    if IsCInt (timeused + fingerCheckIntervalMs) then
      stopLoop timeout flags (timeused + fingerCheckIntervalMs) (k + 1)
    else none
  else some (timeused, k)
termination_by (timeout - timeused).toNat
decreasing_by
  unfold fingerCheckIntervalMs
  omega

/-- What a stop request returns, how long it has waited in its loop, and the look it ended with. -/
structure StopWait where
  ret : ℤ
  timeused : ℤ
  look : ℕ
deriving DecidableEq, Repr

namespace World

/-- `community_ops_stop_by_user`, with the timeout of the framework. -/
def stopByUser (w : World π) (opsTimeoutMs waitingMs : ℤ) (flags : ℕ → CtrlFlag) :
    Option (StopWait × World π) :=
  if w.dev.devStatus = devsCommIdle then some ({ ret := 0, timeused := 0, look := 0 }, w)
  else do
    let timeout := if waitingMs < opsTimeoutMs then waitingMs else opsTimeoutMs
    let (timeused, look) ← stopLoop timeout flags 0 0
    -- the flag is read again
    let ret := if (flags (look + 1)).IsSettled then 0 else -1
    some ({ ret, timeused, look }, w.communityOpsStopByUser)

/-- `bio_ops_stop_ops`. -/
def bioOpsStopOps (w : World π) (opsTimeoutMs waitingSec : ℤ) (flags : ℕ → CtrlFlag) :
    Option (StopWait × World π) := do
  let waitingMs ← cInt (waitingSec * 1000)
  w.stopByUser opsTimeoutMs waitingMs flags

end World

/-! ### What is asked -/

/-- `min(1000 * waiting_sec, T)`. -/
def stopLimit (opsTimeoutMs waitingSec : ℤ) : ℤ := min (1000 * waitingSec) opsTimeoutMs

/-- Before its `k`th look the loop has seen no end, and its time was not over. -/
def StillWaits (flags : ℕ → CtrlFlag) (limit : ℤ) (k : ℕ) : Prop :=
  ∀ j < k, ¬ (flags j).IsSettled ∧ 100 * (j : ℤ) < limit

/-- The stop request waits until the operation has come to its end or the time is over, returns 0
exactly if it has seen that end, and would have waited no longer with fewer seconds. -/
def StopsAsAsked (w : World π) (opsTimeoutMs waitingSec : ℤ) (flags : ℕ → CtrlFlag) : Prop :=
  ∃ r w', w.bioOpsStopOps opsTimeoutMs waitingSec flags = some (r, w') ∧
    StillWaits flags (stopLimit opsTimeoutMs waitingSec) r.look ∧
    ((flags r.look).IsSettled ∨ stopLimit opsTimeoutMs waitingSec ≤ 100 * r.look) ∧
    r.timeused = 100 * r.look ∧
    (r.ret = 0 ↔ ∃ k ≤ r.look + 1, (flags k).IsSettled) ∧
    ∀ waitingSec' r' w'', 0 ≤ waitingSec' → waitingSec' ≤ waitingSec →
      w.bioOpsStopOps opsTimeoutMs waitingSec' flags = some (r', w'') →
        r'.timeused ≤ r.timeused

/-! ### The loop -/

section Loop

variable {flags : ℕ → CtrlFlag} {timeout : ℤ}

/-- **Run lemma.** From the `k`th look on, the loop ends with a look at which it has either seen the
end or used up its time, and no earlier. -/
theorem exists_stopLoop (hmax : timeout ≤ 2147483000) {k : ℕ}
    (hwaits : StillWaits flags timeout k) :
    ∃ look : ℕ, stopLoop timeout flags (100 * (k : ℤ)) k = some (100 * (look : ℤ), look) ∧
      StillWaits flags timeout look ∧ ((flags look).IsSettled ∨ timeout ≤ 100 * (look : ℤ)) := by
  -- induction on the time that is left
  induction hleft : (timeout - 100 * (k : ℤ)).toNat using Nat.strong_induction_on
    generalizing k with
  | _ left ih =>
    rw [stopLoop]
    by_cases hround : ¬ (flags k).IsSettled ∧ 100 * (k : ℤ) < timeout
    · have hint : IsCInt (100 * (k : ℤ) + fingerCheckIntervalMs) := by
        unfold fingerCheckIntervalMs
        exact ⟨by omega, by omega⟩
      have hnext : 100 * (k : ℤ) + fingerCheckIntervalMs = 100 * ((k + 1 : ℕ) : ℤ) := by
        unfold fingerCheckIntervalMs
        push_cast
        ring
      have hwaits' : StillWaits flags timeout (k + 1) := by
        intro j hj
        rcases Nat.lt_succ_iff_lt_or_eq.mp hj with hj | rfl
        · exact hwaits j hj
        · exact hround
      rw [if_pos hround, if_pos hint, hnext]
      exact ih _ (by omega) hwaits' rfl
    · rw [if_neg hround]
      refine ⟨k, rfl, hwaits, ?_⟩
      rw [not_and_or, not_not, not_lt] at hround
      exact hround

/-- The look at which the loop ends is determined. -/
theorem stillWaits_le {k k' : ℕ} (hk : StillWaits flags timeout k)
    (hk' : (flags k').IsSettled ∨ timeout ≤ 100 * (k' : ℤ)) : k ≤ k' := by
  by_contra hlt
  obtain ⟨hrunning, htime⟩ := hk k' (by omega)
  rcases hk' with hsettled | hover
  · exact hrunning hsettled
  · omega

end Loop

/-! ### The request -/

section Request

variable {w : World π} {opsTimeoutMs waitingSec : ℤ} {flags : ℕ → CtrlFlag}

/-- A request whose milliseconds are an `int` returns. -/
theorem exists_bioOpsStopOps (opsTimeoutMs : ℤ) (flags : ℕ → CtrlFlag)
    (hbusy : w.dev.devStatus ≠ devsCommIdle) (hsec : 0 ≤ waitingSec)
    (hint : waitingSec ≤ 2147483) :
    ∃ look : ℕ, w.bioOpsStopOps opsTimeoutMs waitingSec flags =
        some ({ ret := if (flags (look + 1)).IsSettled then 0 else -1,
                timeused := 100 * (look : ℤ), look }, w.communityOpsStopByUser) ∧
      StillWaits flags (stopLimit opsTimeoutMs waitingSec) look ∧
      ((flags look).IsSettled ∨ stopLimit opsTimeoutMs waitingSec ≤ 100 * (look : ℤ)) := by
  -- the milliseconds are an `int`
  have hms : cInt (waitingSec * 1000) = some (waitingSec * 1000) :=
    cInt_eq_some ⟨by omega, by omega⟩
  -- the smaller of the two limits is taken
  have htimeout : (if waitingSec * 1000 < opsTimeoutMs then waitingSec * 1000 else opsTimeoutMs) =
      stopLimit opsTimeoutMs waitingSec := by
    unfold stopLimit
    split_ifs <;> omega
  have hmax : stopLimit opsTimeoutMs waitingSec ≤ 2147483000 := by
    unfold stopLimit
    omega
  -- at the first look nobody has waited yet
  have hstart : StillWaits flags (stopLimit opsTimeoutMs waitingSec) 0 :=
    fun j hj => absurd hj (Nat.not_lt_zero j)
  obtain ⟨look, hloop, hwaits, hend⟩ := exists_stopLoop hmax hstart
  refine ⟨look, ?_, hwaits, hend⟩
  rw [Nat.cast_zero, mul_zero] at hloop
  rw [World.bioOpsStopOps, hms, Option.bind_eq_bind, Option.bind_some, World.stopByUser,
    -- a busy device is told to stop, and then waited for
    if_neg hbusy, htimeout]
  simp only [hloop, Option.bind_eq_bind, Option.bind_some]

/-- Otherwise it does not. -/
theorem bioOpsStopOps_eq_none (hint : 2147483 < waitingSec) :
    w.bioOpsStopOps opsTimeoutMs waitingSec flags = none := by
  rw [World.bioOpsStopOps, cInt_eq_none (by omega)]
  rfl

/-- Whoever waits for fewer seconds ends with an earlier look or the same. -/
theorem timeused_mono (hbusy : w.dev.devStatus ≠ devsCommIdle) (hint : waitingSec ≤ 2147483)
    {look : ℕ} (hend : (flags look).IsSettled ∨
      stopLimit opsTimeoutMs waitingSec ≤ 100 * (look : ℤ)) {waitingSec' : ℤ} {r' : StopWait}
    {w'' : World π} (hsec : 0 ≤ waitingSec') (hle : waitingSec' ≤ waitingSec)
    (hcall : w.bioOpsStopOps opsTimeoutMs waitingSec' flags = some (r', w'')) :
    r'.timeused ≤ 100 * (look : ℤ) := by
  obtain ⟨look', hcall', hwaits', -⟩ :=
    exists_bioOpsStopOps opsTimeoutMs flags hbusy hsec (hle.trans hint)
  rw [hcall'] at hcall
  obtain ⟨rfl, -⟩ := Prod.mk.inj (Option.some.inj hcall)
  have hmono : stopLimit opsTimeoutMs waitingSec' ≤ stopLimit opsTimeoutMs waitingSec := by
    unfold stopLimit
    omega
  have hlook : look' ≤ look := stillWaits_le hwaits' (hend.imp_right hmono.trans)
  show 100 * (look' : ℤ) ≤ 100 * (look : ℤ)
  omega

/-- A stop request does as it is asked exactly if its milliseconds are an `int`, and the end of the
operation that its loop sees is not gone at its last look. -/
theorem stopsAsAsked_iff (w : World π) (opsTimeoutMs waitingSec : ℤ) (flags : ℕ → CtrlFlag)
    (hbusy : w.dev.devStatus ≠ devsCommIdle) (hsec : 0 ≤ waitingSec) :
    StopsAsAsked w opsTimeoutMs waitingSec flags ↔ waitingSec ≤ 2147483 ∧
      ∀ k, StillWaits flags (stopLimit opsTimeoutMs waitingSec) k → (flags k).IsSettled →
        (flags (k + 1)).IsSettled := by
  constructor
  · rintro ⟨r, w', hcall, -, -, -, hret, -⟩
    -- with too many seconds the product is no `int`
    have hint : waitingSec ≤ 2147483 := by
      by_contra hover
      rw [bioOpsStopOps_eq_none (not_le.mp hover)] at hcall
      cases hcall
    refine ⟨hint, fun k hwaits hsettled => ?_⟩
    obtain ⟨look, hcall', hwaits', hend'⟩ :=
      -- the loop ends with some look, and the request looks once more
      exists_bioOpsStopOps opsTimeoutMs flags hbusy hsec hint
    rw [hcall'] at hcall
    obtain ⟨rfl, -⟩ := Prod.mk.inj (Option.some.inj hcall)
    -- the loop ends with the look that sees the end
    have hlook : look = k :=
      le_antisymm (stillWaits_le hwaits' (.inl hsettled)) (stillWaits_le hwaits hend')
    subst hlook
    have hzero : (if (flags (look + 1)).IsSettled then (0 : ℤ) else -1) = 0 :=
      hret.mpr ⟨look, Nat.le_succ look, hsettled⟩
    by_contra hgone
    rw [if_neg hgone] at hzero
    exact absurd hzero (by decide)
  · rintro ⟨hint, hstays⟩
    obtain ⟨look, hcall, hwaits, hend⟩ :=
      exists_bioOpsStopOps opsTimeoutMs flags hbusy hsec hint
    refine ⟨_, _, hcall, hwaits, hend, rfl, ?_, fun waitingSec' r' w'' hsec' hle hcall' =>
      timeused_mono hbusy hint hend hsec' hle hcall'⟩
    show (if (flags (look + 1)).IsSettled then (0 : ℤ) else -1) = 0 ↔ _
    -- the request returns what the look after the loop has seen
    by_cases hlast : (flags (look + 1)).IsSettled
    · rw [if_pos hlast]
      exact iff_of_true rfl ⟨look + 1, le_rfl, hlast⟩
    · rw [if_neg hlast]
      refine iff_of_false (by decide) ?_
      rintro ⟨k, hk, hsettled⟩
      have hk : k ≤ look + 1 := hk
      -- a look before the last one of the loop has seen nothing
      rcases Nat.lt_trichotomy k look with hbefore | rfl | hafter
      · exact (hwaits k hbefore).1 hsettled
      · exact hlast (hstays k hwaits hsettled)
      · exact hlast ((show k = look + 1 by omega) ▸ hsettled)

end Request

/-- A device in the middle of an enroll. -/
def enrollingWorld : World Bytes where
  __ := idleWorld
  dev := { idleWorld.dev with devStatus := devsEnrollDoing }

/-- The enroll has come to its end by the fourth look. -/
theorem stopsAsAsked_enroll : StopsAsAsked enrollingWorld 30000 5
    fun k => if k < 3 then .stoping else .stopped := by
  refine (stopsAsAsked_iff _ _ _ _ (by decide) (by decide)).mpr ⟨by decide, fun k _ hsettled => ?_⟩
  have hk : ¬ k < 3 := fun hk => by
    simp only [hk, if_true] at hsettled
    exact absurd hsettled (by decide)
  simp only [show ¬ k + 1 < 3 by omega, if_false]
  decide

/-- The milliseconds of 2147484 seconds are no `int`. -/
theorem not_stopsAsAsked : ¬ ∀ (w : World Bytes) (opsTimeoutMs waitingSec : ℤ)
    (flags : ℕ → CtrlFlag), w.dev.devStatus ≠ devsCommIdle → 0 ≤ waitingSec →
      waitingSec < 2 ^ 31 → StopsAsAsked w opsTimeoutMs waitingSec flags := by
  intro hall
  obtain ⟨r, w', hcall, -⟩ := hall enrollingWorld 30000 2147484 (fun _ => .stopped) (by decide)
    (by decide) (by decide)
  rw [bioOpsStopOps_eq_none (by decide)] at hcall
  cases hcall

end BiometricAuth
