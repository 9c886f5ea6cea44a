import BiometricAuth.Driver.Ops
import BiometricAuth.Lib.Machine

/-!
# Time budgets

`timeused` is one counter for all the operations of a device: enroll, verify,
identify, search and capture start it afresh, open and close only go on counting.
So how long open and close wait for their callback depends on what was done
before: `communityOpsOpen_succeeds_iff` and `communityOpsClose_succeeds_iff` say
that they wait for what the budget has left (`BudgetLeft`).

Main result: `along_ownBudget_iff` — in a run of any operations, every open and
every close whose callback arrives within a budget of its own takes it in exactly
if the shared counter has that much left.
-/

namespace BiometricAuth

open Process World

section Budget

variable {π : Type} (fp : Libfprint π)

/-- The callback `e` of the operation `async` arrives in the sleep number `sleeps` of
the schedule; no user asks for a stop in that sleep after it, or in the next. -/
def Arrives (async : Async) (e : Event π) (sleeps : ℕ) (es : List (List (Event π))) : Prop :=
  ∃ pre before after next rest, es = pre ++ (before ++ e :: after) :: next :: rest ∧
    pre.length = sleeps ∧ (∀ evs ∈ pre, ∀ e ∈ evs, callbackOf async e = false) ∧
    (∀ e ∈ before, callbackOf async e = false) ∧ ∀ e ∈ after ++ next, e ≠ .stopByUser

/-- What the call has polled for, in milliseconds, when `sleeps` sleeps are over: every
second sleep is one interval. -/
def polledMs (sleeps : ℕ) : ℤ := fingerCheckIntervalMs * ↑(sleeps / 2)

/-- The counter has not passed the limit when the loop last looks at it before a
callback in the sleep number `sleeps`. -/
def BudgetLeft (priv : DriverInfo) (sleeps : ℕ) : Prop :=
  sleeps = 0 ∨ priv.timeused + polledMs (sleeps - 1) ≤ priv.timeoutMS

instance (priv : DriverInfo) (sleeps : ℕ) : Decidable (BudgetLeft priv sleeps) :=
  inferInstanceAs (Decidable (_ ∨ _))

/-- Waiting for the callback of `async`. -/
structure WaitingFor (async : Async) (r timeoutMS : ℤ) (w : World π) : Prop where
  pending : w.pending = some async
  asynFlag : w.priv.asynFlag = .running
  opsResult : w.dev.opsResult = r
  timeoutMS : w.priv.timeoutMS = timeoutMS

/-- The callback has come. -/
structure Completed (r : ℤ) (w : World π) : Prop where
  pending : w.pending = none
  asynFlag : w.priv.asynFlag = .done
  opsResult : w.dev.opsResult = r

/-- A stop request changes neither the counter nor what open and close wait for. -/
theorem WaitingFor.stopByUser {async : Async} {r timeoutMS : ℤ} {w : World π}
    (h : WaitingFor async r timeoutMS w) :
    WaitingFor async r timeoutMS w.communityOpsStopByUser ∧
      w.communityOpsStopByUser.priv.timeused = w.priv.timeused := by
  unfold communityOpsStopByUser
  split
  · exact ⟨h, rfl⟩
  · exact ⟨⟨h.pending, rfl, h.opsResult, h.timeoutMS⟩, rfl⟩

/-- The loop of open and close waits for one callback. -/
theorem waits_openPoller (async : Async) (r timeoutMS : ℤ) :
    (openPoller fp).Waits (WaitingFor async r timeoutMS) (Completed r)
      (fun e => callbackOf async e = false) (fun e => e ≠ .stopByUser)
      (fun w => w.priv.timeused) fingerCheckIntervalMs timeoutMS where
  quiet := by
    intro w e hw he
    -- a stop sets the message only
    by_cases hstop : e = .stopByUser
    · subst hstop
      exact ⟨_, rfl, hw.stopByUser⟩
    · refine ⟨w, deliver_of_not_callback fp (fun async' hasync => ?_) hstop, hw, rfl⟩
      rw [hw.pending, Option.some.injEq] at hasync
      rwa [← hasync]
  -- a sleep adds to the time used
  tick := by
    intro w hw
    exact ⟨⟨hw.pending, hw.asynFlag, hw.opsResult, hw.timeoutMS⟩, rfl⟩
  not_done := by
    intro w hw
    change (w.priv.asynFlag == .done) = false
    rw [hw.asynFlag]
    rfl
  timeUp := by
    intro w hw
    change decide (w.priv.timeused > w.priv.timeoutMS) = true ↔ _
    rw [hw.timeoutMS, decide_eq_true_iff]
  not_stopping := fun w _ => rfl
  done := by
    intro w hw
    change (w.priv.asynFlag == .done) = true
    rw [hw.asynFlag]
    rfl
  -- after the loop the callback is not pending any more
  late := by
    intro w e hw hstop
    refine ⟨w, deliver_of_not_callback fp (fun async' hasync => ?_) hstop, hw⟩
    rw [hw.pending] at hasync
    cases hasync

/-- How the loop of open and close ends when its callback arrives. -/
theorem poll_openPoller {async : Async} {e : Event π} {r : ℤ} {sleeps : ℕ} {w : World π}
    {es : List (List (Event π))}
    (he : ∀ w, WaitingFor async r w.priv.timeoutMS w →
      ∃ w', w.deliver fp e = some w' ∧ Completed r w')
    (hw : WaitingFor async r w.priv.timeoutMS w) (harrives : Arrives async e sleeps es) :
    if BudgetLeft w.priv sleeps then
      ∃ w' es', (openPoller fp).poll w es = .ret .done w' es' ∧ Completed r w'
    else ∃ w' es', (openPoller fp).poll w es = .ret .timeout w' es' := by
  obtain ⟨pre, before, after, next, rest, rfl, rfl, hpre, hbefore, hlate⟩ := harrives
  have hwaits := waits_openPoller fp async r w.priv.timeoutMS
  have hfinishes := hwaits.finishes (e := e) (fun w' hw' => he w' (hw'.timeoutMS ▸ hw'))
    hbefore fun e he => hlate e (List.mem_append_left _ he)
  have hpoll := hwaits.poll_eq hfinishes (fun e he => hlate e (List.mem_append_right _ he))
    (by decide) hw hpre rest
  exact hpoll

/-- Open, when its successful callback arrives. -/
theorem communityOpsOpen_succeeds_iff {sleeps : ℕ} {w : World π} {es : List (List (Event π))}
    (henable : w.dev.enable = true) (h : Arrives .deviceOpen (.deviceOpened true) sleeps es) :
    (∃ w' es', communityOpsOpen fp w es = .ret 0 w' es' ∧ w'.dev.opsResult = opsOpenSuccess) ↔
      BudgetLeft w.priv sleeps := by
  -- the callback completes the operation
  have hopened : ∀ v : World π, WaitingFor .deviceOpen w.dev.opsResult v.priv.timeoutMS v →
      ∃ v', v.deliver fp (.deviceOpened true) = some v' ∧ Completed w.dev.opsResult v' := by
    intro v hv
    refine ⟨v.complete.setAsynDone, ?_, rfl, rfl, hv.opsResult⟩
    simp [deliver, hv.pending, onDeviceOpened]
  -- the loop ends with it exactly if there is time left
  have hpoll := poll_openPoller fp hopened
    (w := (w.setAsynRunning.setCtrlFlag .running).startOpen) ⟨rfl, rfl, rfl, rfl⟩ h
  have hbudget : BudgetLeft (w.setAsynRunning.setCtrlFlag .running).startOpen.priv sleeps ↔
      BudgetLeft w.priv sleeps := Iff.rfl
  simp only [hbudget] at hpoll
  constructor
  · rintro ⟨w', es', hopen, -⟩
    -- the call has ended well, so its loop was done
    obtain ⟨exit, w₁, hexit, ⟨rfl, -, -⟩ | ⟨-, hr, -⟩⟩ :=
      -- with no time left it would have timed out
      (communityOpsOpen_eq_ret fp henable).mp hopen
    · by_contra hleft
      rw [if_neg hleft] at hpoll
      obtain ⟨w₂, es₂, htimeout⟩ := hpoll
      rw [htimeout] at hexit
      cases hexit
    · -- with time left it sees the callback
      cases hr
  · intro hleft
    rw [if_pos hleft] at hpoll
    obtain ⟨w₁, es', hdone, -⟩ := hpoll
    exact ⟨w₁.setOpened, es', (communityOpsOpen_eq_ret fp henable).mpr
      ⟨.done, w₁, hdone, Or.inl ⟨rfl, rfl, rfl⟩⟩, rfl⟩

/-- Close, when its callback arrives. -/
theorem communityOpsClose_succeeds_iff {sleeps : ℕ} {w : World π} {es : List (List (Event π))}
    (henable : w.dev.enable = true) (hresult : w.dev.opsResult ≠ opsCloseFail)
    (h : Arrives .deviceClose .deviceClosed sleeps es) :
    (∃ w' es', communityOpsClose fp w es = .ret () w' es' ∧ w'.dev.opsResult ≠ opsCloseFail) ↔
      BudgetLeft w.priv sleeps := by
  -- the callback completes the operation
  have hclosed : ∀ v : World π, WaitingFor .deviceClose w.dev.opsResult v.priv.timeoutMS v →
      ∃ v', v.deliver fp .deviceClosed = some v' ∧ Completed w.dev.opsResult v' := by
    intro v hv
    refine ⟨v.complete.setAsynDone, ?_, rfl, rfl, hv.opsResult⟩
    simp [deliver, hv.pending, onDeviceClosed]
  -- the loop ends with it exactly if there is time left
  have hpoll := poll_openPoller fp hclosed (w := w.setAsynRunning.startClose)
    ⟨rfl, rfl, rfl, rfl⟩ h
  have hbudget : BudgetLeft w.setAsynRunning.startClose.priv sleeps ↔
      BudgetLeft w.priv sleeps := Iff.rfl
  simp only [hbudget] at hpoll
  constructor
  · rintro ⟨w', es', hclose, hne⟩
    obtain ⟨exit, w₁, hexit, ⟨rfl, -⟩ | ⟨-, rfl⟩⟩ :=
      (communityOpsClose_eq_ret fp henable).mp hclose
    · -- with no time left it would have timed out
      by_contra hleft
      rw [if_neg hleft] at hpoll
      obtain ⟨w₂, es₂, htimeout⟩ := hpoll
      rw [htimeout] at hexit
      cases hexit
    · exact absurd rfl hne
  · -- with time left it sees the callback
    intro hleft
    rw [if_pos hleft] at hpoll
    obtain ⟨w₁, es', hdone, hcompleted⟩ := hpoll
    refine ⟨w₁.setCtrlFlag .idle, es', (communityOpsClose_eq_ret fp henable).mpr
      ⟨.done, w₁, hdone, Or.inl ⟨rfl, rfl⟩⟩, ?_⟩
    exact hcompleted.opsResult.trans_ne hresult

/-! ### Runs -/

/-- A call of a driver operation. -/
inductive DriverCall
  | openDevice
  | closeDevice
  | capture
  | enroll (uid idx : ℤ) (bioIdxName : String)
  | verify (uid idx : ℤ)
  | identify (uid idxStart idxEnd : ℤ)
  | search (uid idxStart idxEnd : ℤ)
  | clean (uid idxStart idxEnd : ℤ)
  | getFeatureList (uid idxStart idxEnd : ℤ)

/-- The operation that is called. -/
def DriverCall.run : DriverCall → Driver π Unit
  | .openDevice => discard (communityOpsOpen fp)
  | .closeDevice => communityOpsClose fp
  | .capture => discard (communityOpsCapture fp)
  | .enroll uid idx bioIdxName => discard (communityOpsEnroll fp uid idx bioIdxName)
  | .verify uid idx => discard (communityOpsVerify fp uid idx)
  | .identify uid idxStart idxEnd => discard (communityOpsIdentify fp uid idxStart idxEnd)
  | .search uid idxStart idxEnd => discard (communityOpsSearch fp uid idxStart idxEnd)
  | .clean uid idxStart idxEnd => discard (communityOpsClean uid idxStart idxEnd)
  | .getFeatureList uid idxStart idxEnd =>
    discard (communityOpsGetFeatureList uid idxStart idxEnd)

/-- A call that returns, with the schedule it ran by. -/
def callStep (w : World π) (call : DriverCall × List (List (Event π))) : Option (World π) :=
  match call.1.run fp w call.2 with
  | .ret _ w' _ => some w'
  | _ => none

/-- Open and close have a budget of their own: when the callback arrives before the call
has polled for more than `timeoutMS`, open succeeds and close does not fail. -/
def OwnBudget (w : World π) : DriverCall × List (List (Event π)) → Prop
  | (.openDevice, es) => ∀ sleeps, w.dev.enable = true →
      Arrives .deviceOpen (.deviceOpened true) sleeps es → polledMs sleeps ≤ w.priv.timeoutMS →
      ∃ w' es', communityOpsOpen fp w es = .ret 0 w' es' ∧ w'.dev.opsResult = opsOpenSuccess
  | (.closeDevice, es) => ∀ sleeps, w.dev.enable = true → w.dev.opsResult ≠ opsCloseFail →
      Arrives .deviceClose .deviceClosed sleeps es → polledMs sleeps ≤ w.priv.timeoutMS →
      ∃ w' es', communityOpsClose fp w es = .ret () w' es' ∧ w'.dev.opsResult ≠ opsCloseFail
  | _ => True

/-- Open and close find as much left of the shared budget as their callback takes. -/
def SharedBudget (w : World π) : DriverCall × List (List (Event π)) → Prop
  | (.openDevice, es) => ∀ sleeps, w.dev.enable = true →
      Arrives .deviceOpen (.deviceOpened true) sleeps es → polledMs sleeps ≤ w.priv.timeoutMS →
      BudgetLeft w.priv sleeps
  | (.closeDevice, es) => ∀ sleeps, w.dev.enable = true → w.dev.opsResult ≠ opsCloseFail →
      Arrives .deviceClose .deviceClosed sleeps es → polledMs sleeps ≤ w.priv.timeoutMS →
      BudgetLeft w.priv sleeps
  | _ => True

/-- One call. -/
theorem ownBudget_iff (w : World π) (call : DriverCall × List (List (Event π))) :
    OwnBudget fp w call ↔ SharedBudget w call := by
  obtain ⟨call, es⟩ := call
  cases call with
  | openDevice =>
    refine forall_congr' fun sleeps => forall_congr' fun henable => forall_congr' fun harrives => ?_
    rw [communityOpsOpen_succeeds_iff fp henable harrives]
  | closeDevice =>
    refine forall_congr' fun sleeps => forall_congr' fun henable => forall_congr' fun hresult =>
      forall_congr' fun harrives => ?_
    rw [communityOpsClose_succeeds_iff fp henable hresult harrives]
  | _ => exact Iff.rfl

/-- In a run of operations, every open and close has a budget of its own exactly if each
finds enough left of the shared one. -/
theorem along_ownBudget_iff (w : World π) (calls : List (DriverCall × List (List (Event π)))) :
    Machine.Along (callStep fp) (OwnBudget fp) w calls ↔
      Machine.Along (callStep fp) SharedBudget w calls := by
  induction calls generalizing w with
  | nil => exact Iff.rfl
  | cons call calls ih =>
    exact and_congr (ownBudget_iff fp w call)
      (forall_congr' fun w' => imp_congr_right fun _ => ih w')

end Budget

/-! ### A device -/

/-- A device that was opened before; libfprint's prints are bytes. -/
def idleWorld : World Bytes where
  dev :=
    { driverId := 0, deviceName := "uru4000", enable := true, devNum := 1,
      biotype := .fingerPrint, eigtype := .eigenvalue, bustype := .usb, idTable := [],
      devStatus := 0, opsResult := 100, notifyMid := 100 }
  priv :=
    { timeoutMS := 30000, timeused := 0, ctrlFlag := .running, asynFlag := .done,
      aesKey := defaultAesKey }
  store := ⟨EigenInfo.empty, []⟩
  uuidOf _ := ""
  pending := none
  enrollData := ⟨0, 0, ""⟩
  captureData := none
  identifyData := ⟨0, 0, 0⟩
  searchData := ⟨0, 0, 0, 0, [], none⟩
  trace := []
  exchanges := []

/-- Prints are bytes, compared as they are. -/
def bytesLibfprint : Libfprint Bytes where
  deserialize data := some data
  equal print print' := print == print'

/-- Index `0` of user 1000 holds the print `[1, 2, 3]`. -/
def enrolledWorld : World Bytes where
  __ := idleWorld
  store :=
    ⟨EigenInfo.empty.insert 1000 "" 0 "uru4000" 0 "a" 3 [84, 76, 110, 78], []⟩

/-- The enroll is cancelled after 30 seconds; the next open is answered in its first
interval and fails all the same. -/
theorem not_along_ownBudget :
    ¬ Machine.Along (callStep bytesLibfprint) (OwnBudget bytesLibfprint) idleWorld
      [(.enroll 1000 0 "a", List.replicate 604 [] ++ [[.enrollCompleted .error]]),
        (.openDevice, [[], [.deviceOpened true], []])] := by
  rintro ⟨-, h⟩
  have hspent : (callStep bytesLibfprint idleWorld
      (.enroll 1000 0 "a", List.replicate 604 [] ++ [[.enrollCompleted .error]])).map
        (fun w => (w.dev.enable, w.priv.timeused, w.priv.timeoutMS)) =
      some (true, 30100, 30000) := by decide +kernel
  obtain ⟨w, hw, hpriv⟩ := Option.map_eq_some_iff.mp hspent
  obtain ⟨henable, htimeused, htimeoutMS⟩ : w.dev.enable = true ∧ w.priv.timeused = 30100 ∧
      w.priv.timeoutMS = 30000 := by simpa using hpriv
  have hleft := (ownBudget_iff bytesLibfprint w _).mp (h w hw).1 1 henable
    ⟨[[]], [], [], [], [], rfl, rfl, by simp, by simp, by simp⟩
    (by simp [polledMs, htimeoutMS])
  simp [BudgetLeft, polledMs, htimeused, htimeoutMS] at hleft

end BiometricAuth
