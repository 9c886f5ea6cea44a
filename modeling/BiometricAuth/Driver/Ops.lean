import BiometricAuth.Common.CInt
import BiometricAuth.Driver.World

/-!
# The operations of the community driver

The operations `community_ops_*`, each of which starts an asynchronous operation
of libfprint and polls for its end, and the functions `bio_ops_*` of the
framework, which put one of them between an open and a close.

The polling loops of enroll, verify, identify, search and capture are one
`Poller`; open and close poll in the same way but do not look whether they are
to stop (`openPoller`). What they have in common after the loop is
`awaitCompletion`.

A `Driver` program works on a `World` and is interrupted by the `Event`s of its
schedule, one entry per sleep.
-/

namespace BiometricAuth

open Process

/-- A program of the driver. -/
abbrev Driver (π α : Type) := Proc (World π) (Event π) α

section Ops

variable {π : Type} (fp : Libfprint π)

/-! ### Polling -/

/-- `EM1600DEV_FINGER_CHECK_INTERVAL_MS`. -/
def fingerCheckIntervalMs : ℤ := 100

/-- The polling loop of an operation. -/
def opPoller : Poller (World π) (Event π) where
  deliver := World.deliver fp
  isDone w := w.priv.asynFlag == .done
  timeUp w := decide (w.priv.timeused > w.priv.timeoutMS)
  tick w :=
    { w with priv := { w.priv with timeused := w.priv.timeused + fingerCheckIntervalMs } }
  isStopping w := w.priv.ctrlFlag == .stoping
  stop w :=
    World.setCtrlFlag
      { w with
        dev := ((w.dev.setOpsResult opsCommStopByUser).setNotifyMid
          notifyCommStopByUser).setDevStatus devsCommIdle } .stopped

/-- The polling loop of open and close. -/
def openPoller : Poller (World π) (Event π) :=
  { opPoller fp with isStopping := fun _ => false }

/-- The device is idle again, with an absolute result and message. -/
def World.setIdle (w : World π) (result mid : ℤ) : World π :=
  { w with
    dev := ((w.dev.setOpsAbsResult result).setNotifyAbsMid mid).setDevStatus devsCommIdle }

/-- Poll for the end of an operation; on a timeout its result is `result`. -/
def awaitCompletion (poller : Poller (World π) (Event π)) (result mid : ℤ) :
    Driver π Exit := do
  let exit ← poller.poll
  if exit = .timeout then
    Proc.modify fun w => w.setIdle result mid
  return exit

theorem awaitCompletion_eq_ret {poller : Poller (World π) (Event π)} {result mid : ℤ}
    {w w' : World π} {es es' : List (List (Event π))} {exit : Exit} :
    awaitCompletion poller result mid w es = .ret exit w' es' ↔
      ∃ w₁, poller.poll w es = .ret exit w₁ es' ∧
        w' = if exit = .timeout then w₁.setIdle result mid else w₁ := by
  unfold awaitCompletion
  rw [Proc.bind_eq_ret]
  constructor
  · rintro ⟨exit₁, w₁, es₁, hpoll, hret⟩
    cases exit₁ <;> cases hret <;> exact ⟨_, hpoll, rfl⟩
  · rintro ⟨w₁, hpoll, rfl⟩
    refine ⟨exit, w₁, es', hpoll, ?_⟩
    cases exit <;> rfl

/-! ### `community_ops_open` and `community_ops_close` -/

/-- What open and close report of a disabled device. -/
def setDisabled (w : World π) : World π :=
  { w with
    dev := ((w.dev.setDevStatus devsCommDisable).setOpsResult opsCommError).setNotifyAbsMid
      notifyCommDisable }

/-- libfprint is asked to open the device. -/
def World.startOpen (w : World π) : World π :=
  { w.beginAsync .deviceOpen .deviceOpen with dev := w.dev.setDevStatus devsOpenDoing }

/-- The device is open. -/
def World.setOpened (w : World π) : World π :=
  { w with
    dev := ((w.dev.setDevStatus devsCommIdle).setOpsAbsResult opsOpenSuccess).setNotifyAbsMid
      notifyOpenSuccess }

/-- `community_ops_open`. -/
def communityOpsOpen : Driver π ℤ := do
  Proc.modify fun w => w.setAsynRunning.setCtrlFlag .running
  let w ← Proc.get
  if w.dev.enable = false then
    Proc.modify setDisabled
    return -1
  else
    Proc.modify World.startOpen
    if (← awaitCompletion (openPoller fp) opsOpenFail notifyOpenFail) = .done then
      Proc.modify World.setOpened
      return 0
    else
      return -1

/-- libfprint is asked to close the device. -/
def World.startClose (w : World π) : World π := w.beginAsync .deviceClose .deviceClose

/-- `community_ops_close`. A disabled device is closed all the same. -/
def communityOpsClose : Driver π Unit := do
  Proc.modify World.setAsynRunning
  let w ← Proc.get
  if w.dev.enable = false then
    Proc.modify setDisabled
  Proc.modify World.startClose
  if (← awaitCompletion (openPoller fp) opsCloseFail notifyCloseFail) = .done then
    Proc.modify fun w => w.setCtrlFlag .idle

/-- Open and close do not look at the stop request. -/
theorem openPoller_exit {w w' : World π} {es es' : List (List (Event π))} {exit : Exit}
    (h : (openPoller fp).poll w es = .ret exit w' es') : exit = .done ∨ exit = .timeout := by
  have hexit := Poller.poll_invariant (P := fun _ => True) (Q := fun _ => False)
    (fun _ _ _ _ _ => trivial) (fun _ _ _ => trivial)
    (fun _ _ hstopping => by simp [openPoller] at hstopping)
    (fun _ _ _ h _ => h) trivial h
  cases exit with
  | done => exact Or.inl rfl
  | timeout => exact Or.inr rfl
  | stopped => exact hexit.1.elim

/-- How open ends on an enabled device. -/
theorem communityOpsOpen_eq_ret {w w' : World π} {es es' : List (List (Event π))} {r : ℤ}
    (henable : w.dev.enable = true) :
    communityOpsOpen fp w es = .ret r w' es' ↔
      ∃ exit w₁, (openPoller fp).poll (w.setAsynRunning.setCtrlFlag .running).startOpen es =
          .ret exit w₁ es' ∧
        (exit = .done ∧ r = 0 ∧ w' = w₁.setOpened ∨
          exit = .timeout ∧ r = -1 ∧ w' = w₁.setIdle opsOpenFail notifyOpenFail) := by
  have hrun : (w.setAsynRunning.setCtrlFlag .running).dev.enable = true := henable
  simp only [communityOpsOpen, Proc.modify_bind, Proc.get_bind, hrun, Bool.true_eq_false,
    if_false]
  rw [Proc.bind_eq_ret]
  constructor
  · -- the loop was done, or the time was up
    rintro ⟨exit, w₂, es₂, hawait, hret⟩
    obtain ⟨w₁, hpoll, rfl⟩ := awaitCompletion_eq_ret.mp hawait
    rcases openPoller_exit fp hpoll with rfl | rfl
    · obtain ⟨rfl, rfl, rfl⟩ := Proc.pure_eq_ret.mp hret
      exact ⟨.done, w₁, hpoll, Or.inl ⟨rfl, rfl, rfl⟩⟩
    · obtain ⟨rfl, rfl, rfl⟩ := Proc.pure_eq_ret.mp hret
      exact ⟨.timeout, w₁, hpoll, Or.inr ⟨rfl, rfl, rfl⟩⟩
  · -- in both cases the rest of the call is determined
    rintro ⟨exit, w₁, hpoll, ⟨rfl, rfl, rfl⟩ | ⟨rfl, rfl, rfl⟩⟩
    · exact ⟨.done, w₁, es', awaitCompletion_eq_ret.mpr ⟨w₁, hpoll, rfl⟩, rfl⟩
    · exact ⟨.timeout, w₁.setIdle opsOpenFail notifyOpenFail, es',
        awaitCompletion_eq_ret.mpr ⟨w₁, hpoll, rfl⟩, rfl⟩

/-- How close ends on an enabled device. -/
theorem communityOpsClose_eq_ret {w w' : World π} {es es' : List (List (Event π))}
    (henable : w.dev.enable = true) :
    communityOpsClose fp w es = .ret () w' es' ↔
      ∃ exit w₁, (openPoller fp).poll w.setAsynRunning.startClose es = .ret exit w₁ es' ∧
        (exit = .done ∧ w' = w₁.setCtrlFlag .idle ∨
          exit = .timeout ∧ w' = w₁.setIdle opsCloseFail notifyCloseFail) := by
  have hrun : w.setAsynRunning.dev.enable = true := henable
  simp only [communityOpsClose, Proc.modify_bind, Proc.get_bind, hrun, Bool.true_eq_false,
    if_false]
  rw [Proc.bind_eq_ret]
  constructor
  · -- the loop was done, or the time was up
    rintro ⟨exit, w₂, es₂, hawait, hret⟩
    obtain ⟨w₁, hpoll, rfl⟩ := awaitCompletion_eq_ret.mp hawait
    rcases openPoller_exit fp hpoll with rfl | rfl
    · cases hret
      exact ⟨.done, w₁, hpoll, Or.inl ⟨rfl, rfl⟩⟩
    · cases hret
      exact ⟨.timeout, w₁, hpoll, Or.inr ⟨rfl, rfl⟩⟩
  · -- in both cases the rest of the call is determined
    rintro ⟨exit, w₁, hpoll, ⟨rfl, rfl⟩ | ⟨rfl, rfl⟩⟩
    · exact ⟨.done, w₁, es', awaitCompletion_eq_ret.mpr ⟨w₁, hpoll, rfl⟩, rfl⟩
    · exact ⟨.timeout, w₁.setIdle opsCloseFail notifyCloseFail, es',
        awaitCompletion_eq_ret.mpr ⟨w₁, hpoll, rfl⟩, rfl⟩

/-! ### The operations between -/

/-- `priv->asyn_flag = ASYN_FALG_RUNNING; priv->timeused = 0;` -/
def World.startAsync (w : World π) : World π :=
  { w with priv := { w.priv with asynFlag := .running, timeused := 0 } }

/-- An operation of the device begins. -/
def World.call (w : World π) (async : Async) (call : FpCall π) : World π :=
  { w.beginAsync async call with dev := w.dev.setNotifyAbsMid midExtendedMessage }

/-- What the operations report of a disabled device. -/
def disabled (w : World π) : World π := { w with dev := w.dev.setDevStatus devsCommDisable }

/-- `community_ops_enroll`. -/
def communityOpsEnroll (uid idx : ℤ) (bioIdxName : String) : Driver π ℤ := do
  let w ← Proc.get
  let idx ← Proc.ofOption (enrollIndex w.uuidOf w.store.db w.dev uid idx)
  if w.dev.enable = false then
    Proc.modify setDisabled
    return -1
  else
    Proc.modify fun w =>
      World.call (World.startAsync
        { w with dev := w.dev.setDevStatus devsEnrollDoing, enrollData := ⟨uid, idx, bioIdxName⟩ })
        .deviceEnroll .deviceEnroll
    if (← awaitCompletion (opPoller fp) opsEnrollTimeout notifyEnrollTimeout) = .done then
      return 0
    else
      return -1

/-- The template `community_ops_verify` compares with: the first sample of the first
feature. An empty list is a `NULL` dereference. -/
def verifyTemplate (w : World π) (uid idx : ℤ) : Option Bytes := do
  let infos ← listFeatureInfo w.uuidOf w.store.db (w.dev.query uid idx idx)
  let info ← infos.head?
  let sample ← info.samples.head?
  decodeTemplate w.priv.aesKey sample

/-- `community_ops_verify`. -/
def communityOpsVerify (uid idx : ℤ) : Driver π ℤ := do
  let w ← Proc.get
  if w.dev.enable = false then
    Proc.modify disabled
    return -1
  else
    Proc.modify fun w => World.startAsync { w with dev := w.dev.setDevStatus devsVerifyDoing }
    let data ← Proc.ofOption (verifyTemplate w uid idx)
    match fp.deserialize data with
    | none => return -1
    | some verifyPrint =>
      Proc.modify fun w => w.call .deviceVerify (.deviceVerify verifyPrint)
      if (← awaitCompletion (opPoller fp) opsVerifyTimeout notifyVerifyTimeout) = .done then
        Proc.modify fun w => { w with dev := w.dev.setDevStatus devsCommIdle }
        return 0
      else
        return -1

/-- `community_ops_identify`. -/
def communityOpsIdentify (uid idxStart idxEnd : ℤ) : Driver π ℤ := do
  Proc.modify fun w => { w with identifyData := ⟨uid, idxStart, idxEnd⟩ }
  let w ← Proc.get
  if w.dev.enable = false then
    Proc.modify disabled
    return -1
  else
    -- the status is the operation type, not one of its states
    Proc.modify fun w => World.startAsync { w with dev := w.dev.setDevStatus opsTypeIdentify }
    let prints ← Proc.ofOption
      (createPrints fp.deserialize w.uuidOf w.priv.aesKey w.store.db w.dev uid idxStart idxEnd)
    Proc.modify fun w => w.call .deviceIdentify (.deviceIdentify prints)
    if (← awaitCompletion (opPoller fp) opsIdentifyTimeout notifyIdentifyTimeout) = .done then
      Proc.modify fun w => { w with dev := w.dev.setDevStatus devsCommIdle }
      let w ← Proc.get
      return w.identifyData.uid
    else
      return -1

/-- One round of the loop of `community_ops_search`. -/
def searchRound (uid idxEnd : ℤ) : Driver π Exit := do
  Proc.modify World.startAsync
  let w ← Proc.get
  let prints ← Proc.ofOption
    (createPrints fp.deserialize w.uuidOf w.priv.aesKey w.store.db w.dev uid w.searchData.index
      idxEnd)
  Proc.modify fun w => w.beginAsync .deviceSearch (.deviceIdentify prints)
  awaitCompletion (opPoller fp) opsSearchTimeout notifySearchTimeout

/-- At most `rounds` rounds of the loop of `community_ops_search`. -/
def searchRounds (uid idxEnd : ℤ) : ℕ → Driver π Exit
  | 0 => fun w _ => .waiting w
  | rounds + 1 => do
    let w ← Proc.get
    if w.priv.ctrlFlag = .done then
      return .done
    else
      let exit ← searchRound fp uid idxEnd
      if exit = .done then
        let w ← Proc.get
        let index ← Proc.ofOption (cInt (w.searchData.index + 1))
        Proc.modify fun w => { w with searchData := { w.searchData with index := index } }
        searchRounds uid idxEnd rounds
      else
        return exit

/-- The loop of `community_ops_search`. A round sleeps at least once, so the schedule is
used up after as many rounds as it has entries. -/
def searchLoop (uid idxEnd : ℤ) : Driver π Exit :=
  fun w es => searchRounds fp uid idxEnd (es.length + 1) w es

/-- The list that begins at `found`. -/
def SearchData.foundList (data : SearchData) : List FeatureInfo :=
  match data.found with
  | none => []
  | some node => data.foundHead.drop (node - 1)

/-- `community_ops_search`. -/
def communityOpsSearch (uid idxStart idxEnd : ℤ) : Driver π (List FeatureInfo) := do
  Proc.modify fun w =>
    { w with
      searchData :=
        { uid, idxStart, idxEnd, index := 0, foundHead := [], found := some 0 } }
  let w ← Proc.get
  if w.dev.enable = false then
    Proc.modify disabled
    return []
  else
    Proc.modify fun w =>
      { w with dev := (w.dev.setDevStatus opsTypeSearch).setNotifyAbsMid midExtendedMessage }
    if (← searchLoop fp uid idxEnd) = .done then
      let w ← Proc.get
      if w.searchData.found.isSome then
        Proc.modify fun w =>
          { w with
            dev := ((w.dev.setOpsAbsResult opsSearchMatch).setNotifyAbsMid
              notifySearchMatch).setNotifyAbsMid midExtendedMessage }
      else
        Proc.modify fun w =>
          { w with
            dev := ((w.dev.setOpsAbsResult opsSearchNoMatch).setNotifyAbsMid
              notifySearchNoMatch).setNotifyAbsMid midExtendedMessage }
      Proc.modify fun w => { w with dev := w.dev.setDevStatus devsCommIdle }
      return w.searchData.foundList
    else
      return []

/-- `finger_capture`. -/
def fingerCapture : Driver π (Option Bytes) := do
  Proc.modify fun w => (World.startAsync w).call .deviceCapture .deviceCapture
  if (← awaitCompletion (opPoller fp) opsCaptureTimeout notifyCaptureTimeout) = .done then
    let w ← Proc.get
    return w.captureData
  else
    return none

/-- What `community_ops_capture` encodes: `sizeof` of the pointer `feature_encode` is 8,
so 8 bytes are read, whatever the length of the image. -/
def captureEncode (featureData : Bytes) : Option Bytes :=
  if 8 ≤ featureData.length then some (bioBase64Encode (featureData.take 8)) else none

/-- What `community_ops_capture` reports of an image. -/
def setCaptured (w : World π) : World π :=
  { w with
    dev := ((w.dev.setDevStatus devsCommIdle).setOpsResult opsCaptureSuccess).setNotifyAbsMid
      notifyCaptureSuccess }

/-- `community_ops_capture`. -/
def communityOpsCapture : Driver π (Option Bytes) := do
  Proc.modify fun w => { w with captureData := none }
  let w ← Proc.get
  if w.dev.enable = false then
    Proc.modify setDisabled
    return none
  else
    Proc.modify fun w => { w with dev := w.dev.setDevStatus devsCaptureDoing }
    match ← fingerCapture fp with
    | none => return none
    | some featureData =>
      match w.dev.eigtype with
      | .data =>
        Proc.modify setCaptured
        return some featureData
      | .eigenvalue | .eigenvector =>
        let featureEncode ← Proc.ofOption (captureEncode featureData)
        Proc.modify setCaptured
        return some featureEncode

/-- `community_ops_clean`. -/
def communityOpsClean (uid idxStart idxEnd : ℤ) : Driver π ℤ := do
  let w ← Proc.get
  if w.dev.enable = false then
    Proc.modify disabled
    return 0
  else
    let (ret, store) := bioStoCleanFeatureInfo w.store (w.dev.query uid idxStart idxEnd)
    Proc.modify fun w => { w with dev := w.dev.setDevStatus devsCleanDoing, store := store }
    if ret = 0 then
      Proc.modify fun w => w.setIdle opsCleanSuccess notifyCleanSuccess
    else
      Proc.modify fun w =>
        { w with
          dev := ((w.dev.setOpsResult opsCleanFail).setNotifyAbsMid notifyCleanFail).setDevStatus
            devsCommIdle }
    return ret

/-- `community_ops_get_feature_list`. -/
def communityOpsGetFeatureList (uid idxStart idxEnd : ℤ) : Driver π (List FeatureInfo) := do
  let w ← Proc.get
  if w.dev.enable = false then
    Proc.modify disabled
    return []
  else
    Proc.modify fun w => { w with dev := w.dev.setDevStatus opsTypeGetFlist }
    let found ← Proc.ofOption
      (listFeatureInfo w.uuidOf w.store.db (w.dev.query uid idxStart idxEnd))
    Proc.modify fun w => w.setIdle opsGetFlistSuccess midExtendedMessage
    return found

/-! ### `bio_ops_*` -/

/-- What the operations of the framework have in common: open, the operation of the
driver unless that failed, and close. They return `failed` when the operation is not
reached. -/
def bioOps {α : Type} (failed : α) (op : Driver π α) : Driver π α := do
  let w ← Proc.get
  if w.dev.enable = false then
    Proc.modify fun w =>
      { w with
        dev := ((w.dev.setDevStatus devsCommDisable).setOpsResult opsCommError).setNotifyMid
          notifyCommDisable }
    return failed
  else
    let opened ← communityOpsOpen fp
    let ret ← if opened = 0 then op else pure failed
    communityOpsClose fp
    return ret

/-- `bio_ops_capture`; `none` is the `NULL` of a disabled device. -/
def bioOpsCapture : Driver π (Option Bytes) := do
  let w ← Proc.get
  let caps ← bioOps fp none (communityOpsCapture fp)
  return if w.dev.enable = false then none else some (bioNewString caps)

/-- `bio_ops_enroll`. -/
def bioOpsEnroll (uid idx : ℤ) (idxName : String) : Driver π ℤ :=
  bioOps fp (-1) (communityOpsEnroll fp uid idx idxName)

/-- `bio_ops_verify`. -/
def bioOpsVerify (uid idx : ℤ) : Driver π ℤ := bioOps fp (-1) (communityOpsVerify fp uid idx)

/-- `bio_ops_identify`. -/
def bioOpsIdentify (uid idxStart idxEnd : ℤ) : Driver π ℤ :=
  bioOps fp (-1) (communityOpsIdentify fp uid idxStart idxEnd)

/-- `bio_ops_search`. -/
def bioOpsSearch (uid idxStart idxEnd : ℤ) : Driver π (List FeatureInfo) :=
  bioOps fp [] (communityOpsSearch fp uid idxStart idxEnd)

/-- `bio_ops_clean`. -/
def bioOpsClean (uid idxStart idxEnd : ℤ) : Driver π ℤ :=
  bioOps fp (-1) (communityOpsClean uid idxStart idxEnd)

/-- `bio_ops_get_feature_list`. -/
def bioOpsGetFeatureList (uid idxStart idxEnd : ℤ) : Driver π (List FeatureInfo) :=
  bioOps fp [] (communityOpsGetFeatureList uid idxStart idxEnd)

/-- `bio_ops_feature_rename`, for a driver without an `ops_feature_rename`. -/
def bioOpsFeatureRename (uid idx : ℤ) (newName : String) : Driver π ℤ := do
  Proc.modify fun w => { w with dev := w.dev.setDevAbsStatus devsRenameDoing }
  let w ← Proc.get
  let (ret, store) ← Proc.ofOption
    (bioCommFeatureRenameByDb w.uuidOf w.store w.dev uid idx newName)
  Proc.modify fun w => { w with store := store }
  if ret = 0 then
    Proc.modify fun w =>
      { w with dev := w.dev.setAllAbsStatus devsCommIdle opsRenameSuccess notifyRenameSuccess }
  else
    Proc.modify fun w =>
      { w with dev := w.dev.setAllAbsStatus devsCommIdle opsRenameFail notifyRenameIncomplete }
  return ret

end Ops

end BiometricAuth
