import BiometricAuth.Driver.Prints
import BiometricAuth.Lib.Polling

/-!
# The community driver and libfprint

The state the community-multidevice driver works on (`World`), and what happens
to it while an operation of the driver sleeps: libfprint calls back (`Event`),
or a user asks for the operation to be stopped.

libfprint runs at most one asynchronous operation of the device at a time,
`pending`. It reports progress or matches only while the operation is under
way, and completes it once; a callback that is not due does not happen, which
`deliver` models by ignoring the event. What a match is and which bytes are a
print is up to libfprint, a parameter (`Libfprint`).

`trace` records the calls into libfprint and the match reports with what they are about, and
`exchanges` which operations began, were reported on and completed; no function of the driver reads
either. The `extra_info` texts are left out, and with them the stage numbers of the enroll progress
and the error texts.

The callbacks that read the database print what they have read, as `on_enroll_completed` prints what
it inserts (`print_feature_info`), and crash where a line is too long for its buffer.
-/

namespace BiometricAuth

/-- What the driver asks of libfprint's prints. -/
structure Libfprint (π : Type) where
  /-- `fp_print_deserialize`; `none` is an error. -/
  deserialize : Bytes → Option π
  /-- `fp_print_equal`. -/
  equal : π → π → Bool

/-- `ASYN_FALG_RUNNING`, `ASYN_FLAG_DONE`. -/
inductive AsynFlag
  | running | done
deriving DecidableEq, Repr

/-- `CONTROL_FLAG_IDLE` and the other control flags. -/
inductive CtrlFlag
  | idle | running | stoping | stopped | done
deriving DecidableEq, Repr

/-- The private data of the driver (`driver_info`). -/
structure DriverInfo where
  timeoutMS : ℤ
  timeused : ℤ
  ctrlFlag : CtrlFlag
  asynFlag : AsynFlag
  aesKey : Bytes
deriving DecidableEq, Repr

/-- `enroll_data`. -/
structure EnrollData where
  uid : ℤ
  idx : ℤ
  bioIdxName : String
deriving DecidableEq, Repr

/-- `identify_data`. -/
structure IdentifyData where
  uid : ℤ
  idxStart : ℤ
  idxEnd : ℤ
deriving DecidableEq, Repr

/-- `search_data`. -/
structure SearchData where
  uid : ℤ
  idxStart : ℤ
  idxEnd : ℤ
  index : ℤ
  /-- The list behind `found_head`. -/
  foundHead : List FeatureInfo
  /-- `found`: the node it points to, counted from `found_head`; `none` for `NULL`. -/
  found : Option ℕ
deriving DecidableEq, Repr

/-- An asynchronous operation of libfprint. -/
inductive Async
  | deviceOpen | deviceClose | deviceCapture | deviceEnroll | deviceVerify
  /-- `fp_device_identify` with `on_match_cb_identify`. -/
  | deviceIdentify
  /-- `fp_device_identify` with `on_match_cb_search`. -/
  | deviceSearch
deriving DecidableEq, Repr

/-- What passes between the driver and libfprint, as far as the order goes. -/
inductive Exchange
  /-- libfprint is given an operation. -/
  | begun (async : Async)
  /-- libfprint reports to the match callback of the operation. -/
  | reported
  /-- libfprint calls back that the operation is over. -/
  | completed
  /-- libfprint calls back that the device could not be opened. -/
  | openFailed
deriving DecidableEq, Repr

/-- What libfprint tells a match callback. -/
inductive MatchReport (π : Type)
  | error
  | noMatch
  | matched (print : π)

/-- How `fp_device_enroll_finish` and `fp_print_serialize` end. -/
inductive EnrollResult
  | error
  | serializeError
  | print (data : Bytes)

/-- A call into libfprint, or a report to a match callback. -/
inductive FpCall (π : Type)
  | deviceOpen
  | deviceClose
  | deviceCapture
  | deviceEnroll
  | deviceVerify (print : π)
  | deviceIdentify (prints : List (Option π))
  | onMatchCbVerify (report : MatchReport π)
  | onMatchCbIdentify (report : MatchReport π)
  | onMatchCbSearch (report : MatchReport π)

/-- What happens while the driver sleeps. -/
inductive Event (π : Type)
  /-- `on_device_opened`, without or with an error. -/
  | deviceOpened (ok : Bool)
  /-- `on_device_closed`, which only prints its error. -/
  | deviceClosed
  /-- `on_enroll_progress`, which only prints its error. -/
  | enrollProgress
  /-- `on_enroll_completed`. -/
  | enrollCompleted (result : EnrollResult)
  /-- `on_capture_completed`, with the binarized image unless there is an error. -/
  | captureCompleted (image : Option Bytes)
  /-- The match callback of the operation. -/
  | matchReport (report : MatchReport π)
  /-- `on_verify_completed`, which only prints its error. -/
  | verifyCompleted
  /-- `on_device_identify`, which only prints its error. -/
  | deviceIdentified
  /-- `community_ops_stop_by_user`. -/
  | stopByUser

/-- The device with its driver, the database and libfprint. -/
structure World (π : Type) where
  dev : BioDev
  priv : DriverInfo
  store : Store
  /-- The current UUID of a user. -/
  uuidOf : ℤ → String
  /-- The operation libfprint is working on. -/
  pending : Option Async
  /-- The data the enroll callbacks are given. -/
  enrollData : EnrollData
  /-- `feature_data` of the capture. -/
  captureData : Option Bytes
  /-- The data the identify callbacks are given. -/
  identifyData : IdentifyData
  /-- The data the search callback is given. -/
  searchData : SearchData
  /-- The calls so far. Nothing reads it. -/
  trace : List (FpCall π)
  /-- The exchanges with libfprint so far. Nothing reads them either. -/
  exchanges : List Exchange

namespace World

variable {π : Type}

/-- libfprint is given the operation `async`, by the call `call`. -/
def beginAsync (w : World π) (async : Async) (call : FpCall π) : World π :=
  { w with
    pending := some async
    trace := w.trace ++ [call]
    exchanges := w.exchanges ++ [.begun async] }

@[simp] theorem beginAsync_trace (w : World π) (async : Async) (call : FpCall π) :
    (w.beginAsync async call).trace = w.trace ++ [call] := rfl

/-! ### Callbacks -/

/-- libfprint has nothing to do any more. -/
def complete (w : World π) : World π :=
  { w with
    pending := none
    exchanges := w.exchanges ++ [.completed] }

/-- So it is when the device is open, or could not be opened. -/
def completeOpen (w : World π) (ok : Bool) : World π :=
  { w with
    pending := none
    exchanges := w.exchanges ++ [if ok then .completed else .openFailed] }

@[simp] theorem completeOpen_true (w : World π) : w.completeOpen true = w.complete := rfl

/-- libfprint reports to a match callback. -/
def report (w : World π) (call : FpCall π) : World π :=
  { w with
    trace := w.trace ++ [call]
    exchanges := w.exchanges ++ [.reported] }

@[simp] theorem report_trace (w : World π) (call : FpCall π) :
    (w.report call).trace = w.trace ++ [call] := rfl

/-- `priv->asyn_flag = ASYN_FLAG_DONE`. -/
def setAsynDone (w : World π) : World π := { w with priv := { w.priv with asynFlag := .done } }

/-- `priv->asyn_flag = ASYN_FALG_RUNNING`. -/
def setAsynRunning (w : World π) : World π :=
  { w with priv := { w.priv with asynFlag := .running } }

/-- `priv->ctrlFlag = flag`. -/
def setCtrlFlag (w : World π) (flag : CtrlFlag) : World π :=
  { w with priv := { w.priv with ctrlFlag := flag } }

/-- `on_device_opened`. -/
def onDeviceOpened (w : World π) (ok : Bool) : World π := if ok then w.setAsynDone else w

/-- `on_device_closed`. -/
def onDeviceClosed (w : World π) : World π := w.setAsynDone

/-- `on_enroll_progress`. -/
def onEnrollProgress (w : World π) : World π :=
  { w with
    dev := w.dev.setNotifyAbsMid midExtendedMessage
    priv := { w.priv with timeused := 0 } }

/-- `on_enroll_completed`. The result of the insert is not looked at. -/
def onEnrollCompleted (w : World π) : EnrollResult → Option (World π)
  | .error => some w.setAsynDone
  | .serializeError => some w
  | .print data =>
    (storeTemplate w.uuidOf w.priv.aesKey w.store w.dev w.enrollData.uid w.enrollData.idx
      w.enrollData.bioIdxName data).map fun (_, store) =>
        setAsynDone
          { w with
            store := store
            dev := ((w.dev.setOpsAbsResult opsEnrollSuccess).setNotifyAbsMid
              notifyEnrollSuccess).setDevStatus devsCommIdle }

/-- `on_capture_completed`. -/
def onCaptureCompleted (w : World π) : Option Bytes → World π
  | some image => setAsynDone { w with captureData := some image }
  | none => w.setAsynDone

/-- `on_verify_completed`. -/
def onVerifyCompleted (w : World π) : World π := w.setAsynDone

/-- `on_device_identify`. -/
def onDeviceIdentify (w : World π) : World π := w.setAsynDone

/-- `on_match_cb_verify`. -/
def onMatchCbVerify (w : World π) (report : MatchReport π) : World π :=
  let w := w.report (.onMatchCbVerify report)
  match report with
  | .error => w
  | .matched _ =>
    { w with dev := ((w.dev.setOpsAbsResult opsVerifyMatch).setNotifyAbsMid
        notifyVerifyMatch).setNotifyAbsMid midExtendedMessage }
  | .noMatch =>
    { w with dev := ((w.dev.setOpsAbsResult opsVerifyNoMatch).setNotifyAbsMid
        notifyVerifyNoMatch).setNotifyAbsMid midExtendedMessage }

/-- Whether a stored sample is the matched print (`fp_print_equal`, which a print that
cannot be deserialized never is). -/
def sampleEqual (fp : Libfprint π) (key : Bytes) (print : π) (sample : FeatureSample) :
    Option Bool :=
  (decodeTemplate key sample).map fun data =>
    match fp.deserialize data with
    | some comparePrint => fp.equal print comparePrint
    | none => false

/-- A print of the gallery is equal to the sample it was made from. -/
theorem exists_equal_of_gallery {fp : Libfprint π} {uuidOf : ℤ → String} {key : Bytes}
    {db : EigenInfo} {dev : BioDev} {uid idxStart idxEnd : ℤ} {prints : List (Option π)} {print : π}
    (hequal : ∀ print, fp.equal print print = true)
    (h : createPrints fp.deserialize uuidOf key db dev uid idxStart idxEnd = some prints)
    (hprint : some print ∈ prints) :
    ∃ infos, listFeatureInfo uuidOf db (dev.query uid idxStart idxEnd) = some infos ∧
      ∃ info ∈ infos, ∃ sample ∈ info.samples, sampleEqual fp key print sample = some true := by
  obtain ⟨infos, hinfos, info, hinfo, sample, hsample, hdecode⟩ :=
    exists_sample_of_mem_createPrints h hprint
  obtain ⟨data, hdata, hdeserialize⟩ := Option.map_eq_some_iff.mp hdecode
  exact ⟨infos, hinfos, info, hinfo, sample, hsample, by
    simp [sampleEqual, hdata, hdeserialize, hequal]⟩

/-- The user `on_match_cb_identify` ends with: the last one with an equal sample. -/
def identifyUid (fp : Libfprint π) (key : Bytes) (print : π) (infos : List FeatureInfo)
    (uid : ℤ) : Option ℤ :=
  (infos.flatMap fun info => info.samples.map fun sample => (info.uid, sample)).foldlM
    (fun uid (infoUid, sample) =>
      (sampleEqual fp key print sample).map fun equal => if equal then infoUid else uid) uid

/-- `on_match_cb_identify`. -/
def onMatchCbIdentify (fp : Libfprint π) (w : World π) (report : MatchReport π) :
    Option (World π) :=
  let w := w.report (.onMatchCbIdentify report)
  match report with
  | .error => some w
  | .matched print => do
    let infos ← listFeatureInfo w.uuidOf w.store.db
      (w.dev.query w.identifyData.uid w.identifyData.idxStart w.identifyData.idxEnd)
    let uid ← identifyUid fp w.priv.aesKey print infos w.identifyData.uid
    some { w with
      identifyData := { w.identifyData with uid := uid }
      dev := ((w.dev.setOpsAbsResult opsIdentifyMatch).setNotifyAbsMid
        notifyIdentifyMatch).setNotifyAbsMid midExtendedMessage }
  | .noMatch =>
    some { w with dev := ((w.dev.setOpsAbsResult opsIdentifyNoMatch).setNotifyAbsMid
        notifyIdentifyNoMatch).setNotifyAbsMid midExtendedMessage }

/-- A sample equal to the matched print goes behind `found`, and `found` moves on to
it; what was behind `found` before is cut off. -/
def SearchData.append (data : SearchData) (info : FeatureInfo) (sample : FeatureSample) :
    Option SearchData :=
  data.found.map fun node =>
    { data with
      foundHead := data.foundHead.take node ++
        [{ info with samples := [⟨0, sample.no, sample.data⟩] }]
      found := some (node + 1)
      index := info.index }

/-- The loop of `on_match_cb_search` over the samples of a feature. -/
def searchSamples (fp : Libfprint π) (key : Bytes) (print : π) (info : FeatureInfo) :
    List FeatureSample → SearchData → Option SearchData
  | [], data => some data
  | sample :: samples, data => do
    if ← sampleEqual fp key print sample then
      searchSamples fp key print info samples (← SearchData.append data info sample)
    else
      match samples with
      | [] => some data
      -- `template_data` is freed here, and again at the end of the round
      | _ :: _ => none

/-- `on_match_cb_search`. -/
def onMatchCbSearch (fp : Libfprint π) (w : World π) (report : MatchReport π) :
    Option (World π) :=
  let w := w.report (.onMatchCbSearch report)
  match report with
  | .error => some w
  | .matched print => do
    let infos ← listFeatureInfo w.uuidOf w.store.db
      (w.dev.query w.searchData.uid w.searchData.index w.searchData.idxEnd)
    let data ← infos.foldlM
      (fun data info => searchSamples fp w.priv.aesKey print info info.samples data) w.searchData
    some { w with
      searchData := data
      dev := w.dev.setNotifyAbsMid midExtendedMessage }
  | .noMatch =>
    some <| setCtrlFlag
      { w with
        searchData := { w.searchData with
          found := if w.searchData.foundHead = [] then none else some 1 } } .done

/-! ### Events -/

/-- What `community_ops_stop_by_user` changes, before it waits for the operation. -/
def communityOpsStopByUser (w : World π) : World π :=
  if w.dev.devStatus = devsCommIdle then w
  else
    setCtrlFlag { w.setAsynRunning with dev := w.dev.setNotifyAbsMid midExtendedMessage } .stoping

/-- What an event does; `none` where a callback crashes. -/
def deliver (fp : Libfprint π) (w : World π) : Event π → Option (World π)
  | .deviceOpened ok =>
    some (if w.pending = some .deviceOpen then (w.completeOpen ok).onDeviceOpened ok else w)
  | .deviceClosed =>
    some (if w.pending = some .deviceClose then w.complete.onDeviceClosed else w)
  | .enrollProgress =>
    some (if w.pending = some .deviceEnroll then w.onEnrollProgress else w)
  | .enrollCompleted result =>
    if w.pending = some .deviceEnroll then w.complete.onEnrollCompleted result else some w
  | .captureCompleted image =>
    some (if w.pending = some .deviceCapture then w.complete.onCaptureCompleted image else w)
  | .matchReport report =>
    match w.pending with
    | some .deviceVerify => some (w.onMatchCbVerify report)
    | some .deviceIdentify => onMatchCbIdentify fp w report
    | some .deviceSearch => onMatchCbSearch fp w report
    | _ => some w
  | .verifyCompleted =>
    some (if w.pending = some .deviceVerify then w.complete.onVerifyCompleted else w)
  | .deviceIdentified =>
    some (if w.pending = some .deviceIdentify ∨ w.pending = some .deviceSearch then
      w.complete.onDeviceIdentify else w)
  | .stopByUser => some w.communityOpsStopByUser

/-- The callbacks of an operation. -/
def callbackOf (async : Async) : Event π → Bool
  | .deviceOpened _ => async = .deviceOpen
  | .deviceClosed => async = .deviceClose
  | .enrollProgress => async = .deviceEnroll
  | .enrollCompleted _ => async = .deviceEnroll
  | .captureCompleted _ => async = .deviceCapture
  | .matchReport _ => async = .deviceVerify ∨ async = .deviceIdentify ∨ async = .deviceSearch
  | .verifyCompleted => async = .deviceVerify
  | .deviceIdentified => async = .deviceIdentify ∨ async = .deviceSearch
  | .stopByUser => false

/-- A report to `on_match_cb_identify` is about the device, the user and the trace. -/
theorem exists_of_onMatchCbIdentify {fp : Libfprint π} {w w' : World π} {report : MatchReport π}
    (h : onMatchCbIdentify fp w report = some w') :
    ∃ uid dev, w' = { w.report (.onMatchCbIdentify report) with
        identifyData := { w.identifyData with uid := uid }
        dev := dev } ∧
      (dev = w.dev ∨ ∃ result mid,
        dev = ((w.dev.setOpsAbsResult result).setNotifyAbsMid mid).setNotifyAbsMid
          midExtendedMessage) := by
  cases report with
  | error =>
    obtain rfl := Option.some.inj h
    exact ⟨_, _, rfl, .inl rfl⟩
  | noMatch =>
    obtain rfl := Option.some.inj h
    exact ⟨_, _, rfl, .inr ⟨_, _, rfl⟩⟩
  | matched print =>
    simp only [onMatchCbIdentify, Option.bind_eq_bind, Option.bind_eq_some_iff,
      Option.some.injEq] at h
    obtain ⟨infos, -, uid, -, rfl⟩ := h
    exact ⟨_, _, rfl, .inr ⟨_, _, rfl⟩⟩

/-- A report to `on_match_cb_search` is about the data of the search, the message, the trace and,
without a match, `ctrlFlag`. -/
theorem exists_of_onMatchCbSearch {fp : Libfprint π} {w w' : World π} {report : MatchReport π}
    (h : onMatchCbSearch fp w report = some w') :
    ∃ data dev ctrlFlag, w' = { w.report (.onMatchCbSearch report) with
        searchData := data
        dev := dev
        priv := { w.priv with ctrlFlag := ctrlFlag } } ∧
      (dev = w.dev ∨ dev = w.dev.setNotifyAbsMid midExtendedMessage) ∧
      (ctrlFlag = w.priv.ctrlFlag ∨ ctrlFlag = .done) := by
  cases report with
  | error =>
    obtain rfl := Option.some.inj h
    exact ⟨_, _, _, rfl, .inl rfl, .inl rfl⟩
  | noMatch =>
    obtain rfl := Option.some.inj h
    exact ⟨_, _, _, rfl, .inl rfl, .inr rfl⟩
  | matched print =>
    simp only [onMatchCbSearch, Option.bind_eq_bind, Option.bind_eq_some_iff,
      Option.some.injEq] at h
    obtain ⟨infos, -, data, -, rfl⟩ := h
    exact ⟨_, _, _, rfl, .inr rfl, .inl rfl⟩

/-- What an event has done: it was ignored, or it was taken by the callback that was due. -/
inductive Delivered (fp : Libfprint π) (w : World π) : Event π → World π → Prop
  | ignored (e : Event π) : Delivered fp w e w
  | stopByUser : Delivered fp w .stopByUser w.communityOpsStopByUser
  | deviceOpened (ok : Bool) (hpending : w.pending = some .deviceOpen) :
      Delivered fp w (.deviceOpened ok) ((w.completeOpen ok).onDeviceOpened ok)
  | deviceClosed (hpending : w.pending = some .deviceClose) :
      Delivered fp w .deviceClosed w.complete.onDeviceClosed
  | enrollProgress (hpending : w.pending = some .deviceEnroll) :
      Delivered fp w .enrollProgress w.onEnrollProgress
  | enrollError (hpending : w.pending = some .deviceEnroll) :
      Delivered fp w (.enrollCompleted .error) w.complete.setAsynDone
  | serializeError (hpending : w.pending = some .deviceEnroll) :
      Delivered fp w (.enrollCompleted .serializeError) w.complete
  | enrollPrint (data : Bytes) {ret : ℤ} {store : Store} (hpending : w.pending = some .deviceEnroll)
      (hwrite : storeTemplate w.uuidOf w.priv.aesKey w.store w.dev w.enrollData.uid
        w.enrollData.idx w.enrollData.bioIdxName data = some (ret, store)) :
      Delivered fp w (.enrollCompleted (.print data)) (setAsynDone
        { w.complete with
          store := store
          dev := ((w.dev.setOpsAbsResult opsEnrollSuccess).setNotifyAbsMid
            notifyEnrollSuccess).setDevStatus devsCommIdle })
  | captureCompleted (image : Option Bytes) (hpending : w.pending = some .deviceCapture) :
      Delivered fp w (.captureCompleted image) (w.complete.onCaptureCompleted image)
  | verifyReport (report : MatchReport π) (hpending : w.pending = some .deviceVerify) :
      Delivered fp w (.matchReport report) (w.onMatchCbVerify report)
  | identifyReport {report : MatchReport π} {w' : World π}
      (hpending : w.pending = some .deviceIdentify)
      (hreport : onMatchCbIdentify fp w report = some w') :
      Delivered fp w (.matchReport report) w'
  | searchReport {report : MatchReport π} {w' : World π}
      (hpending : w.pending = some .deviceSearch)
      (hreport : onMatchCbSearch fp w report = some w') :
      Delivered fp w (.matchReport report) w'
  | verifyCompleted (hpending : w.pending = some .deviceVerify) :
      Delivered fp w .verifyCompleted w.complete.onVerifyCompleted
  | deviceIdentified
      (hpending : w.pending = some .deviceIdentify ∨ w.pending = some .deviceSearch) :
      Delivered fp w .deviceIdentified w.complete.onDeviceIdentify

/-- Where a callback takes the event if `p`. -/
theorem Delivered.ite {fp : Libfprint π} {w w' : World π} {e : Event π} {p : Prop} [Decidable p]
    (h : p → Delivered fp w e w') : Delivered fp w e (if p then w' else w) := by
  split
  next hp => exact h hp
  next => exact .ignored e

/-- Every case of `deliver`. -/
theorem deliver_inv {fp : Libfprint π} {w w' : World π} {e : Event π}
    (h : w.deliver fp e = some w') : Delivered fp w e w' := by
  cases e with
  | deviceOpened ok =>
    obtain rfl := Option.some.inj h
    exact .ite (.deviceOpened ok)
  | deviceClosed =>
    obtain rfl := Option.some.inj h
    exact .ite .deviceClosed
  | enrollProgress =>
    obtain rfl := Option.some.inj h
    exact .ite .enrollProgress
  | captureCompleted image =>
    obtain rfl := Option.some.inj h
    exact .ite (.captureCompleted image)
  | verifyCompleted =>
    obtain rfl := Option.some.inj h
    exact .ite .verifyCompleted
  | deviceIdentified =>
    obtain rfl := Option.some.inj h
    exact .ite .deviceIdentified
  | stopByUser =>
    obtain rfl := Option.some.inj h
    exact .stopByUser
  | enrollCompleted result =>
    -- only while an enroll is pending
    rw [deliver] at h
    split at h
    next hpending =>
      cases result with
      | error =>
        -- an enroll that failed
        obtain rfl := Option.some.inj h
        exact .enrollError hpending
      | serializeError =>
        obtain rfl := Option.some.inj h
        exact .serializeError hpending
      | print data =>
        -- a print: it is stored
        obtain ⟨⟨ret, store⟩, hwrite, rfl⟩ := Option.map_eq_some_iff.mp h
        exact .enrollPrint data hpending hwrite
    next =>
      -- an answer to nobody
      obtain rfl := Option.some.inj h
      exact .ignored _
  | matchReport report =>
    rw [deliver] at h
    -- whose report it is depends on what is pending
    split at h
    next hpending =>
      obtain rfl := Option.some.inj h
      exact .verifyReport report hpending
    next hpending => exact .identifyReport hpending h
    next hpending => exact .searchReport hpending h
    next =>
      obtain rfl := Option.some.inj h
      exact .ignored _

/-- Only the callbacks of the operation under way do anything. -/
theorem deliver_of_not_callback (fp : Libfprint π) {w : World π} {e : Event π}
    (he : ∀ async, w.pending = some async → callbackOf async e = false)
    (hstop : e ≠ .stopByUser) : w.deliver fp e = some w := by
  cases hp : w.pending with
  | none =>
    cases e with
    | stopByUser => exact absurd rfl hstop
    | _ => simp [deliver, hp]
  | some async =>
    have he := he async hp
    cases e with
    | stopByUser => exact absurd rfl hstop
    | matchReport report =>
      cases async <;> simp_all [deliver, callbackOf]
    | _ => simp_all [deliver, callbackOf]

/-- An event does nothing, or asks for a stop, or is a callback of the operation under
way. -/
theorem deliver_cases {fp : Libfprint π} {w w' : World π} {e : Event π}
    (h : w.deliver fp e = some w') :
    w' = w ∨ w' = w.communityOpsStopByUser ∨
      ∃ async, w.pending = some async ∧ callbackOf async e = true := by
  by_cases hstop : e = .stopByUser
  · subst hstop
    exact Or.inr (Or.inl (Option.some.inj h).symm)
  · by_cases hcallback : ∀ async, w.pending = some async → callbackOf async e = false
    · rw [deliver_of_not_callback fp hcallback hstop] at h
      exact Or.inl (Option.some.inj h).symm
    · push Not at hcallback
      obtain ⟨async, hasync, hcallback⟩ := hcallback
      exact Or.inr (Or.inr ⟨async, hasync, by simpa using hcallback⟩)

@[simp] theorem communityOpsStopByUser_opsResult (w : World π) :
    w.communityOpsStopByUser.dev.opsResult = w.dev.opsResult := by
  unfold communityOpsStopByUser
  split <;> rfl

@[simp] theorem communityOpsStopByUser_trace (w : World π) :
    w.communityOpsStopByUser.trace = w.trace := by
  unfold communityOpsStopByUser
  split <;> rfl

@[simp] theorem communityOpsStopByUser_pending (w : World π) :
    w.communityOpsStopByUser.pending = w.pending := by
  unfold communityOpsStopByUser
  split <;> rfl

@[simp] theorem communityOpsStopByUser_devStatus (w : World π) :
    w.communityOpsStopByUser.dev.devStatus = w.dev.devStatus := by
  unfold communityOpsStopByUser
  split <;> rfl

@[simp] theorem communityOpsStopByUser_enrollData (w : World π) :
    w.communityOpsStopByUser.enrollData = w.enrollData := by
  unfold communityOpsStopByUser
  split <;> rfl

@[simp] theorem communityOpsStopByUser_store (w : World π) :
    w.communityOpsStopByUser.store = w.store := by
  unfold communityOpsStopByUser
  split <;> rfl

end World

end BiometricAuth
