import BiometricAuth.Common.Messages
import BiometricAuth.Driver.Session

/-!
# What the driver has texts for

A client asks for the text of a status word at any time, also while an operation sleeps. The codes
come from four places: the functions set them absolutely, the relative setters put the type of the
state in front of a code, a stop does so from whatever state it finds, and the callbacks of
libfprint set them in between. The texts are in tables that know nothing of this.

`Saying states w` says that the device is in one of `states` and that the other two words have
texts. Each part of an operation keeps to a short list of states; a stop in any of them composes a
code that the tables have.

Main result: `run_told`. The functions of identify, search and the feature list take the operation
type for a state, and that is the only thing a client is ever told nothing about.
-/

namespace BiometricAuth

open Process World

/-! ### States -/

/-- The states between two calls. Enroll, verify and capture may leave theirs behind. -/
def restStates : List ℤ :=
  [devsCommIdle, devsCommDisable, devsEnrollDoing, devsVerifyDoing, devsCaptureDoing]

/-- The operation types that are taken for states. -/
def bareStates : List ℤ := [opsTypeIdentify, opsTypeSearch, opsTypeGetFlist]

/-- The states of a device. -/
def driverStates : List ℤ :=
  restStates ++ bareStates ++ [devsOpenDoing, devsCleanDoing, devsRenameDoing]

/-- A stop in one of these states composes codes that have texts. -/
def StopWorded (states : List ℤ) : Prop :=
  ∀ state ∈ states, state.tdiv 100 * 100 + opsCommStopByUser.tmod 100 ∈ worded opsResultMesgs ∧
    state.tdiv 100 * 100 + notifyCommStopByUser.tmod 100 ∈ worded notifyMidMesgs

instance decidableStopWorded (states : List ℤ) : Decidable (StopWorded states) :=
  inferInstanceAs (Decidable (∀ state ∈ states, _))

/-- The result and the message of the device have texts. -/
structure Spoken (dev : BioDev) : Prop where
  opsResult : dev.opsResult ∈ worded opsResultMesgs
  notifyMid : dev.notifyMid = midExtendedMessage ∨ dev.notifyMid ∈ worded notifyMidMesgs

section Worded

variable {π : Type} {fp : Libfprint π} {w w' : World π} {states states' : List ℤ}

/-- The device is in one of the states, and its other words have texts. -/
structure Saying (states : List ℤ) (w : World π) : Prop where
  devStatus : w.dev.devStatus ∈ states
  spoken : Spoken w.dev

theorem Saying.mono (h : Saying states w) (hsub : states ⊆ states') : Saying states' w :=
  ⟨hsub h.devStatus, h.spoken⟩

/-- Nothing that a client asks for has changed. -/
theorem Saying.congr (h : Saying states w) (hdev : w'.dev = w.dev) : Saying states w' := by
  refine ⟨?_, ?_⟩ <;> rw [hdev]
  exacts [h.devStatus, h.spoken]

/-- The driver's own text takes the place of any message. -/
theorem Saying.extended (h : Saying states w)
    (hdev : w'.dev = w.dev.setNotifyAbsMid midExtendedMessage) : Saying states w' := by
  refine ⟨?_, ?_⟩ <;> rw [hdev]
  exacts [h.devStatus, ⟨h.spoken.opsResult, .inl rfl⟩]

/-- A match callback sets a result, and its message is replaced by the driver's own text. -/
theorem Saying.report (result : ℤ) {mid : ℤ} (h : Saying states w)
    (hresult : result ∈ worded opsResultMesgs)
    (hdev : w'.dev = ((w.dev.setOpsAbsResult result).setNotifyAbsMid mid).setNotifyAbsMid
      midExtendedMessage) : Saying states w' := by
  refine ⟨?_, ?_⟩ <;> rw [hdev]
  exacts [h.devStatus, ⟨hresult, .inl rfl⟩]

/-- Both words are set. -/
theorem Saying.of_eq (state result mid : ℤ) (hstate : state ∈ states)
    (hresult : result ∈ worded opsResultMesgs) (hmid : mid ∈ worded notifyMidMesgs)
    (hdev : w.dev.devStatus = state ∧ w.dev.opsResult = result ∧ w.dev.notifyMid = mid) :
    Saying states w := by
  obtain ⟨rfl, rfl, rfl⟩ := hdev
  exact ⟨hstate, hresult, .inr hmid⟩

/-- The result of a match report to `on_match_cb_identify`. -/
theorem Saying.identifyReport {report : MatchReport π} (h : Saying states w)
    (hreport : onMatchCbIdentify fp w report = some w') : Saying states w' := by
  cases report with
  | error =>
    obtain rfl := Option.some.inj hreport
    exact h.congr rfl
  | noMatch =>
    obtain rfl := Option.some.inj hreport
    exact h.report opsIdentifyNoMatch (by decide) rfl
  | matched print =>
    simp only [onMatchCbIdentify, Option.bind_eq_bind, Option.bind_eq_some_iff,
      Option.some.injEq] at hreport
    obtain ⟨infos, -, uid, -, rfl⟩ := hreport
    exact h.report opsIdentifyMatch (by decide) rfl

/-- What an event tells the clients of. -/
theorem Saying.deliver (hidle : devsCommIdle ∈ states) (h : Saying states w) {e : Event π}
    (he : w.deliver fp e = some w') : Saying states w' := by
  cases deliver_inv he with
  | ignored => exact h
  | stopByUser =>
    -- an idle device does not listen
    unfold communityOpsStopByUser
    split
    · exact h
    · exact h.extended rfl
  | deviceOpened ok => cases ok <;> exact h.congr rfl
  | captureCompleted image => cases image <;> exact h.congr rfl
  | deviceClosed | enrollError | serializeError | verifyCompleted | deviceIdentified =>
    exact h.congr rfl
  | enrollProgress => exact h.extended rfl
  | enrollPrint data =>
    -- the result of an enroll has a text
    exact .of_eq devsCommIdle opsEnrollSuccess notifyEnrollSuccess
      hidle (by decide) (by decide) ⟨rfl, rfl, rfl⟩
  | verifyReport report =>
    cases report with
    | error => exact h.congr rfl
    | noMatch => exact h.report opsVerifyNoMatch (by decide) rfl
    | matched print => exact h.report opsVerifyMatch (by decide) rfl
  | identifyReport hpending hreport => exact h.identifyReport hreport
  | searchReport hpending hreport =>
    obtain ⟨data, dev, ctrlFlag, rfl, rfl | rfl, -⟩ := exists_of_onMatchCbSearch hreport
    · -- the message stays
      exact h.congr rfl
    · -- or is an extended one
      exact h.extended rfl

/-! ### Waiting -/

/-- A device that is told to stop composes its words from the state it is in. -/
theorem Saying.stop (hstop : StopWorded states) (h : Saying states w) :
    Saying [devsCommIdle] ((opPoller fp).stop w) := by
  obtain ⟨hresult, hmid⟩ := hstop _ h.devStatus
  exact .of_eq _ _ _ (List.mem_singleton_self _) hresult hmid ⟨rfl, rfl, rfl⟩

theorem Saying.setIdle {result mid : ℤ} (hidle : devsCommIdle ∈ states)
    (hresult : result ∈ worded opsResultMesgs) (hmid : mid ∈ worded notifyMidMesgs) :
    Saying states (w.setIdle result mid) :=
  .of_eq _ _ _ hidle hresult hmid ⟨rfl, rfl, rfl⟩

/-- Only an operation that is done leaves the device in its state. -/
def leftStates (states : List ℤ) : Exit → List ℤ
  | .done => states
  | .timeout | .stopped => [devsCommIdle]

/-- A loop of the driver, and what a timeout reports. -/
theorem awaitCompletion_saying {poller : Poller (World π) (Event π)} {result mid : ℤ}
    (hdeliver : poller.deliver = deliver fp) (htick : poller.tick = (opPoller fp).tick)
    (hstop : ∀ w, Saying states w → poller.isStopping w = true →
      Saying [devsCommIdle] (poller.stop w))
    (hidle : devsCommIdle ∈ states) (hsub : states ⊆ driverStates)
    (hresult : result ∈ worded opsResultMesgs) (hmid : mid ∈ worded notifyMidMesgs) :
    Proc.Runs (Saying states) (awaitCompletion poller result mid)
      (fun exit => Saying (leftStates states exit)) (Saying driverStates) := by
  -- events before and after the stop say what has a text
  have hevents : ∀ states', devsCommIdle ∈ states' → ∀ w e w', Saying states' w →
      poller.deliver w e = some w' → Saying states' w' := by
    intro states' hidle w e w' h he
    rw [hdeliver] at he
    exact h.deliver hidle he
  -- so does the loop up to its exit
  have hpoll : Proc.Runs (Saying states) poller.poll
      (fun exit => Saying (if exit = .stopped then [devsCommIdle] else states))
      (Saying driverStates) := by
    refine (Poller.poll_runs (Q := Saying [devsCommIdle]) (hevents states hidle) ?_ hstop
      (hevents _ (by decide))).mono (fun _ h => h) ?_ ?_
    · intro w h
      rw [htick]
      exact h.congr rfl
    · rintro exit w ⟨h, -⟩
      split at h
      next hexit => rwa [if_pos hexit]
      next hexit => rwa [if_neg hexit]
    · -- at a crash one of the two held
      exact fun w h => h.elim (fun h => h.mono hsub) fun h => h.mono (by decide)
  refine hpoll.bind fun exit => ?_
  cases exit with
  | done | stopped => exact .pure fun _ h => h
  | timeout =>
    -- a timeout sets a result and a message with a text
    exact .modify_bind (fun _ _ => .setIdle (List.mem_singleton_self _) hresult hmid)
      (.pure fun _ h => h)

/-- The loop of an operation. -/
theorem await_saying {result mid : ℤ} (hidle : devsCommIdle ∈ states)
    (hsub : states ⊆ driverStates) (hstop : StopWorded states)
    (hresult : result ∈ worded opsResultMesgs) (hmid : mid ∈ worded notifyMidMesgs) :
    Proc.Runs (Saying states) (awaitCompletion (opPoller fp) result mid)
      (fun exit => Saying (leftStates states exit)) (Saying driverStates) :=
  awaitCompletion_saying rfl rfl (fun _ h _ => h.stop hstop) hidle hsub hresult hmid

/-- The loop of open and close, which no stop leaves. -/
theorem awaitOpen_saying {result mid : ℤ} (hidle : devsCommIdle ∈ states)
    (hsub : states ⊆ driverStates) (hresult : result ∈ worded opsResultMesgs)
    (hmid : mid ∈ worded notifyMidMesgs) :
    Proc.Runs (Saying states) (awaitCompletion (openPoller fp) result mid)
      (fun exit => Saying (leftStates states exit)) (Saying driverStates) :=
  awaitCompletion_saying rfl rfl (fun _ _ hstopping => absurd hstopping nofun) hidle hsub hresult
    hmid

/-- An operation that is not done has left the device idle. -/
theorem Saying.left {exit : Exit} (h : Saying (leftStates states exit) w) (hexit : exit ≠ .done) :
    Saying [devsCommIdle] w := by
  cases exit with
  | done => exact absurd rfl hexit
  | timeout | stopped => exact h

/-! ### Between the calls of libfprint -/

/-- An update that sets the state alone. -/
theorem Saying.setDevStatus (state : ℤ) (h : Saying states w) (hstate : state ∈ states')
    (hdev : w'.dev = w.dev.setDevStatus state) : Saying states' w' := by
  refine ⟨?_, ?_⟩ <;> rw [hdev]
  exacts [hstate, ⟨h.spoken.opsResult, h.spoken.notifyMid⟩]

/-- A state is set, and the message is the driver's own. -/
theorem Saying.start (state : ℤ) (h : Saying states w) (hstate : state ∈ states')
    (hdev : w'.dev = (w.dev.setDevStatus state).setNotifyAbsMid midExtendedMessage) :
    Saying states' w' := by
  refine ⟨?_, ?_⟩ <;> rw [hdev]
  exacts [hstate, ⟨h.spoken.opsResult, .inl rfl⟩]

/-- What open, close, enroll and capture say of a disabled device. -/
theorem saying_setDisabled : Saying restStates (setDisabled w) :=
  .of_eq devsCommDisable opsCommError notifyCommDisable
    (by decide) (by decide) (by decide) ⟨rfl, rfl, rfl⟩

/-- What comes back of a disabled device. -/
theorem saying_enable {α : Type} {a : α} {p : Driver π α} {P Q I : World π → Prop}
    {f : World π → World π} {w : World π}
    (hf : ∀ w, P w → Q (f w)) (hp : Proc.Runs P p (fun _ => Q) I) :
    Proc.Runs P (if w.dev.enable = false then (do Proc.modify f; return a) else p)
      (fun _ => Q) I :=
  .ite (fun _ => .modify_bind hf (.pure fun _ h => h)) fun _ => hp

/-! ### The functions of the driver -/

theorem communityOpsOpen_saying : Proc.Runs (Saying restStates) (communityOpsOpen fp)
    (fun _ => Saying restStates) (Saying driverStates) := by
  refine .modify_bind (M := Saying restStates) (fun w h => h.congr rfl)
    (.get_bind_of_forall fun w => saying_enable (fun _ _ => saying_setDisabled) ?_)
  refine .modify_bind (M := Saying [devsOpenDoing, devsCommIdle])
    (fun w h => h.setDevStatus devsOpenDoing (by decide) rfl) ?_
  refine (awaitOpen_saying (by decide) (by decide) (by decide) (by decide)).bind fun exit => ?_
  refine .ite (fun _ => .modify_bind (fun w _ => ?_) (.pure fun _ h => h)) fun hexit => .pure ?_
  · exact .of_eq devsCommIdle opsOpenSuccess notifyOpenSuccess
      (by decide) (by decide) (by decide) ⟨rfl, rfl, rfl⟩
  · exact fun w h => (h.left hexit).mono (by decide)

theorem communityOpsClose_saying : Proc.Runs (Saying restStates) (communityOpsClose fp)
    (fun _ => Saying restStates) (Saying driverStates) := by
  have hclose : Proc.Runs (Saying restStates) (do
      Proc.modify World.startClose
      if (← awaitCompletion (openPoller fp) opsCloseFail notifyCloseFail) = .done then
        Proc.modify fun w => w.setCtrlFlag .idle : Driver π Unit) (fun _ => Saying restStates)
      (Saying driverStates) := by
    refine .modify_bind (M := Saying restStates) (fun w h => h.congr rfl) ?_
    refine (awaitOpen_saying (by decide) (by decide) (by decide) (by decide)).bind fun exit => ?_
    cases exit with
    | done => exact .modify fun _ h => h.congr rfl
    | timeout | stopped => exact .pure fun _ h => h.mono (by decide)
  refine .modify_bind (M := Saying restStates) (fun w h => h.congr rfl)
    (.get_bind_of_forall fun w => .ite (fun _ => ?_) fun _ => hclose)
  exact .modify_bind (fun _ _ => saying_setDisabled) hclose

/-- An operation between an open and a close. -/
theorem bioOps_saying {α : Type} {failed : α} {op : Driver π α}
    (hop : Proc.Runs (Saying restStates) op (fun _ => Saying restStates) (Saying driverStates)) :
    Proc.Runs (Saying restStates) (bioOps fp failed op) (fun _ => Saying restStates)
      (Saying driverStates) := by
  refine .get_bind_of_forall fun w => saying_enable (fun w _ => ?_) ?_
  · exact .of_eq devsCommDisable opsCommError notifyCommDisable
      (by decide) (by decide) (by decide) ⟨rfl, rfl, rfl⟩
  · refine communityOpsOpen_saying.bind fun opened => .ite (fun _ => hop.bind fun ret => ?_) ?_
    · exact communityOpsClose_saying.bind fun _ => .pure fun _ h => h
    · exact fun _ => communityOpsClose_saying.bind fun _ => .pure fun _ h => h

/-! ### The operations -/

/-- What is known of a device at rest is known wherever the driver crashes. -/
theorem Saying.rest (h : Saying restStates w) : Saying driverStates w := h.mono (by decide)

theorem communityOpsEnroll_saying {uid idx : ℤ} {bioIdxName : String} :
    Proc.Runs (Saying restStates) (communityOpsEnroll fp uid idx bioIdxName)
      (fun _ => Saying restStates) (Saying driverStates) := by
  refine .get_bind_of_forall fun w => .ofOption_bind (fun _ h => h.rest) fun idx _ => ?_
  refine saying_enable (fun _ _ => saying_setDisabled) ?_
  refine .modify_bind (M := Saying [devsEnrollDoing, devsCommIdle])
    (fun w h => h.start devsEnrollDoing (by decide) rfl) ?_
  refine (await_saying (by decide) (by decide) (by decide) (by decide) (by decide)).bind fun exit =>
    .ite (fun hexit => .pure ?_) fun hexit => .pure ?_
  · -- the state of an enroll that libfprint ends with an error stays
    subst hexit
    exact fun w h => h.mono (by decide)
  · exact fun w h => (h.left hexit).mono (by decide)

theorem communityOpsVerify_saying {uid idx : ℤ} :
    Proc.Runs (Saying restStates) (communityOpsVerify fp uid idx) (fun _ => Saying restStates)
      (Saying driverStates) := by
  refine .get_bind_of_forall fun w => saying_enable (fun w h => ?_) ?_
  · exact h.setDevStatus devsCommDisable (by decide) rfl
  · refine .modify_bind (M := Saying [devsVerifyDoing, devsCommIdle])
      (fun w h => h.setDevStatus devsVerifyDoing (by decide) rfl) ?_
    refine .ofOption_bind (fun _ h => h.mono (by decide)) fun data _ => ?_
    cases fp.deserialize data with
    | none => exact .pure fun _ h => h.mono (by decide)
    | some verifyPrint =>
      refine .modify_bind (M := Saying [devsVerifyDoing, devsCommIdle])
        (fun w h => h.extended rfl) ?_
      refine (await_saying (by decide) (by decide) (by decide) (by decide) (by decide)).bind
        fun exit => .ite (fun _ => .modify_bind (fun w h => ?_) (.pure fun _ h => h)) ?_
      · exact h.setDevStatus devsCommIdle (by decide) rfl
      · exact fun hexit => .pure fun w h => (h.left hexit).mono (by decide)

theorem communityOpsIdentify_saying {uid idxStart idxEnd : ℤ} :
    Proc.Runs (Saying restStates) (communityOpsIdentify fp uid idxStart idxEnd)
      (fun _ => Saying restStates) (Saying driverStates) := by
  refine .modify_bind (M := Saying restStates) (fun w h => h.congr rfl)
    (.get_bind_of_forall fun w => saying_enable (fun w h => ?_) ?_)
  · exact h.setDevStatus devsCommDisable (by decide) rfl
  · -- a stop finds the operation type 4 where a state should be, and composes a general code
    refine .modify_bind (M := Saying [opsTypeIdentify, devsCommIdle])
      (fun w h => h.setDevStatus opsTypeIdentify (by decide) rfl) ?_
    refine .ofOption_bind (fun _ h => h.mono (by decide)) fun prints _ => ?_
    refine .modify_bind (M := Saying [opsTypeIdentify, devsCommIdle]) (fun w h => h.extended rfl) ?_
    refine (await_saying (by decide) (by decide) (by decide) (by decide) (by decide)).bind
      fun exit => .ite (fun _ => .modify_bind (M := Saying restStates) (fun w h => ?_) ?_) ?_
    · exact h.setDevStatus devsCommIdle (by decide) rfl
    · exact .get_bind_of_forall fun w => .pure fun _ h => h
    · exact fun hexit => .pure fun w h => (h.left hexit).mono (by decide)

/-- The states while a search goes through its rounds. -/
def searchStates : List ℤ := [opsTypeSearch, devsCommIdle]

theorem searchRound_saying {uid idxEnd : ℤ} :
    Proc.Runs (Saying searchStates) (searchRound fp uid idxEnd)
      (fun exit => Saying (leftStates searchStates exit)) (Saying driverStates) := by
  refine .modify_bind (M := Saying searchStates) (fun w h => h.congr rfl)
    (.get_bind_of_forall fun w => .ofOption_bind (fun _ h => h.mono (by decide)) fun prints _ => ?_)
  exact .modify_bind (M := Saying searchStates) (fun w h => h.congr rfl)
    (await_saying (by decide) (by decide) (by decide) (by decide) (by decide))

/-- By induction on the rounds, none of which changes the state. -/
theorem searchRounds_saying {uid idxEnd : ℤ} (rounds : ℕ) :
    Proc.Runs (Saying searchStates) (searchRounds fp uid idxEnd rounds)
      (fun exit => Saying (leftStates searchStates exit)) (Saying driverStates) := by
  induction rounds with
  | zero => exact fun w es h => h.mono (by decide)
  | succ rounds ih =>
    refine .get_bind_of_forall fun w => .ite (fun _ => .pure fun _ h => h) fun _ => ?_
    refine searchRound_saying.bind fun exit => .ite (fun hexit => ?_) fun _ => .pure fun _ h => h
    subst hexit
    refine .get_bind_of_forall fun w => .ofOption_bind (fun _ h => h.mono (by decide)) ?_
    exact fun index _ => .modify_bind (M := Saying searchStates) (fun w h => h.congr rfl) ih

theorem communityOpsSearch_saying {uid idxStart idxEnd : ℤ} :
    Proc.Runs (Saying restStates) (communityOpsSearch fp uid idxStart idxEnd)
      (fun _ => Saying restStates) (Saying driverStates) := by
  -- the rounds
  have hloop : Proc.Runs (Saying searchStates) (searchLoop fp uid idxEnd)
      (fun exit => Saying (leftStates searchStates exit)) (Saying driverStates) :=
    fun w es h => searchRounds_saying (es.length + 1) w es h
  refine .modify_bind (M := Saying restStates) (fun w h => h.congr rfl)
    (.get_bind_of_forall fun w => saying_enable (fun w h => ?_) ?_)
  · -- a disabled device says so
    exact h.setDevStatus devsCommDisable (by decide) rfl
  · -- the search begins
    refine .modify_bind (M := Saying searchStates)
      (fun w h => h.start opsTypeSearch (by decide) rfl) ?_
    refine hloop.bind fun exit => .ite (fun _ => .get_bind_of_forall fun w => ?_) ?_
    · -- the last step makes the device idle
      have hend : Proc.Runs (Saying (leftStates searchStates exit)) (do
          Proc.modify fun w => { w with dev := w.dev.setDevStatus devsCommIdle }
          return w.searchData.foundList : Driver π (List FeatureInfo)) (fun _ => Saying restStates)
          (Saying driverStates) := by
        refine .modify_bind (fun w h => ?_) (.pure fun _ h => h)
        exact h.setDevStatus devsCommIdle (by decide) rfl
      -- before that the result, which has a text in both cases
      refine .ite (fun _ => ?_) fun _ => ?_
      · exact .modify_bind (fun w h => h.report opsSearchMatch (by decide) rfl) hend
      · exact .modify_bind (fun w h => h.report opsSearchNoMatch (by decide) rfl) hend
    · exact fun hexit => .pure fun w h => (h.left hexit).mono (by decide)

/-- The states of a capture. -/
def captureStates : List ℤ := [devsCaptureDoing, devsCommIdle]

theorem fingerCapture_saying : Proc.Runs (Saying captureStates) (fingerCapture fp)
    (fun _ => Saying captureStates) (Saying driverStates) := by
  refine .modify_bind (M := Saying captureStates) (fun w h => h.extended rfl) ?_
  refine (await_saying (by decide) (by decide) (by decide) (by decide) (by decide)).bind fun exit =>
    .ite (fun hexit => .get_bind_of_forall fun w => .pure ?_) fun hexit => .pure ?_
  · subst hexit
    exact fun w h => h
  · exact fun w h => (h.left hexit).mono (by decide)

theorem communityOpsCapture_saying : Proc.Runs (Saying restStates) (communityOpsCapture fp)
    (fun _ => Saying restStates) (Saying driverStates) := by
  have hcaptured : ∀ caps : Option Bytes, Proc.Runs (Saying captureStates) (do
      Proc.modify setCaptured
      return caps : Driver π (Option Bytes)) (fun _ => Saying restStates)
      (Saying driverStates) := by
    refine fun caps => .modify_bind (fun w h => ?_) (.pure fun _ h => h)
    -- the result is relative to the state that has just become idle
    exact .of_eq devsCommIdle opsCommSuccess notifyCaptureSuccess
      (by decide) (by decide) (by decide) ⟨rfl, rfl, rfl⟩
  refine .modify_bind (M := Saying restStates) (fun w h => h.congr rfl)
    (.get_bind_of_forall fun w => saying_enable (fun _ _ => saying_setDisabled) ?_)
  refine .modify_bind (M := Saying captureStates)
    (fun w h => h.setDevStatus devsCaptureDoing (by decide) rfl) ?_
  refine fingerCapture_saying.bind fun featureData => ?_
  cases featureData with
  | none => exact .pure fun _ h => h.mono (by decide)
  | some featureData =>
    cases w.dev.eigtype with
    | data => exact hcaptured _
    | eigenvalue | eigenvector =>
      exact .ofOption_bind (fun _ h => h.mono (by decide)) fun _ _ => hcaptured _

theorem communityOpsClean_saying {uid idxStart idxEnd : ℤ} :
    Proc.Runs (Saying restStates) (communityOpsClean uid idxStart idxEnd : Driver π ℤ)
      (fun _ => Saying restStates) (Saying driverStates) := by
  refine .get_bind_of_forall fun w => saying_enable (fun w h => ?_) ?_
  · exact h.setDevStatus devsCommDisable (by decide) rfl
  · refine .modify_bind (M := Saying [devsCleanDoing])
      (fun w h => h.setDevStatus devsCleanDoing (by decide) rfl) ?_
    refine .ite (fun _ => .modify_bind (fun w h => ?_) (.pure fun _ h => h)) fun _ =>
      .modify_bind (fun w h => ?_) (.pure fun _ h => h)
    · exact .setIdle (by decide) (by decide) (by decide)
    · have hclean : w.dev.devStatus = devsCleanDoing := List.mem_singleton.mp h.devStatus
      refine .of_eq devsCommIdle opsCleanFail notifyCleanFail
        (by decide) (by decide) (by decide) ⟨rfl, ?_, rfl⟩
      show w.dev.devStatus.tdiv 100 * 100 + _ = _
      rw [hclean]
      rfl

theorem communityOpsGetFeatureList_saying {uid idxStart idxEnd : ℤ} :
    Proc.Runs (Saying restStates)
      (communityOpsGetFeatureList uid idxStart idxEnd : Driver π (List FeatureInfo))
      (fun _ => Saying restStates) (Saying driverStates) := by
  refine .get_bind_of_forall fun w => saying_enable (fun w h => ?_) ?_
  · exact h.setDevStatus devsCommDisable (by decide) rfl
  · refine .modify_bind (M := Saying [opsTypeGetFlist])
      (fun w h => h.setDevStatus opsTypeGetFlist (by decide) rfl) ?_
    refine .ofOption_bind (fun _ h => h.mono (by decide)) fun found _ =>
      .modify_bind (fun w h => ?_) (.pure fun _ h => h)
    have hresult : opsGetFlistSuccess ∈ worded opsResultMesgs := by decide
    exact ⟨List.mem_cons_self, ⟨hresult, .inl rfl⟩⟩

theorem bioOpsFeatureRename_saying {uid idx : ℤ} {newName : String} :
    Proc.Runs (Saying restStates) (bioOpsFeatureRename uid idx newName : Driver π ℤ)
      (fun _ => Saying restStates) (Saying driverStates) := by
  refine .modify_bind (M := Saying [devsRenameDoing])
    (fun w h => h.setDevStatus devsRenameDoing (by decide) rfl)
    (.get_bind_of_forall fun w => .ofOption_bind (fun _ h => h.mono (by decide)) ?_)
  refine fun renamed _ => .modify_bind (M := Saying [devsRenameDoing]) (fun w h => h.congr rfl)
    (.ite (fun _ => .modify_bind (fun w h => ?_) (.pure fun _ h => h)) fun _ =>
      .modify_bind (fun w h => ?_) (.pure fun _ h => h))
  · exact .of_eq devsCommIdle opsRenameSuccess notifyRenameSuccess
      (by decide) (by decide) (by decide) ⟨rfl, rfl, rfl⟩
  · exact .of_eq devsCommIdle opsRenameFail notifyRenameIncomplete
      (by decide) (by decide) (by decide) ⟨rfl, rfl, rfl⟩

/-! ### Runs -/

theorem BioOps.run_saying (call : BioOps) :
    Proc.Runs (Saying restStates) (call.run fp) (fun _ => Saying restStates)
      (Saying driverStates) := by
  cases call with
  | enroll uid idx idxName => exact (bioOps_saying communityOpsEnroll_saying).discard
  | verify uid idx => exact (bioOps_saying communityOpsVerify_saying).discard
  | identify uid idxStart idxEnd => exact (bioOps_saying communityOpsIdentify_saying).discard
  | search uid idxStart idxEnd => exact (bioOps_saying communityOpsSearch_saying).discard
  | clean uid idxStart idxEnd => exact (bioOps_saying communityOpsClean_saying).discard
  | capture =>
    refine .discard (.get_bind_of_forall fun w => ?_)
    exact (bioOps_saying communityOpsCapture_saying).bind fun caps => .pure fun _ h => h
  | getFeatureList uid idxStart idxEnd =>
    exact (bioOps_saying communityOpsGetFeatureList_saying).discard
  | featureRename uid idx newName => exact bioOpsFeatureRename_saying.discard

/-- What a client is told of a device, whatever the driver's own text is. -/
structure Told (dev : BioDev) : Prop where
  opsMesg : bioGetOpsResultMesg (communityOpsGetOpsResultMesg dev) dev ≠ unknownOpsResultMesg
  notifyMesg : ∀ extraInfo, dev.notifyMid ≠ midExtendedMessage →
    bioGetNotifyMidMesg (communityOpsGetNotifyMidMesg extraInfo dev) dev ≠ unknownNotifyMidMesg
  devMesg : bioGetDevStatusMesg (communityOpsGetDevStatusMesg dev) dev = unknownDevStatusMesg ↔
    dev.devStatus ∈ bareStates

theorem Saying.told (h : Saying driverStates w) : Told w.dev := by
  refine ⟨bioGetOpsResultMesg_ne_iff.mpr h.spoken.opsResult, fun extraInfo hmid => ?_, ?_⟩
  · rw [bioGetNotifyMidMesg, communityOpsGetNotifyMidMesg, if_neg hmid]
    exact (statusMesg_ne_iff (by decide)).mpr (h.spoken.notifyMid.resolve_left hmid)
  · have hstates : ∀ state ∈ driverStates, state ∉ worded devStatusMesgs ↔ state ∈ bareStates := by
      decide
    rw [← hstates _ h.devStatus, ← bioGetDevStatusMesg_ne_iff, not_not]

/-- **What a client is told.** In every run of calls, whatever libfprint reports and whenever a user
asks for a stop: at every sleep of a call, and wherever it ends, the texts of the result and of the
message are ones of these words, and the text of the state is, unless the state is one of the three
operation types. A device whose last call has returned is in none of these. -/
theorem run_told {calls : List (BioOps × List (List (Event π)))} (hw : Saying restStates w)
    (hrun : Machine.run (bioOpsStep fp) w calls = some w') (call : BioOps)
    (es : List (List (Event π))) :
    Told w'.dev ∧ w'.dev.devStatus ∉ bareStates ∧ Told (call.run fp w' es).state.dev := by
  have hw' : Saying restStates w' := by
    refine Machine.run_invariant (P := Saying restStates) (fun w call w' h hstep => ?_) hw hrun
    rw [bioOpsStep] at hstep
    split at hstep
    next hret =>
      obtain rfl := Option.some.inj hstep
      exact call.1.run_saying.of_ret h hret
    next => cases hstep
  have hrest : ∀ state ∈ restStates, state ∉ bareStates := by decide
  exact ⟨hw'.rest.told, hrest _ hw'.devStatus,
    (call.run_saying.state (fun _ _ h => h.rest) hw' es).told⟩

end Worded

/-- An identify that is stopped while libfprint looks for a match. -/
theorem run_told_identify :
    ∃ w, Machine.run (bioOpsStep bytesLibfprint) idleWorld failedEnroll = some w ∧
      Told ((BioOps.identify 1000 0 (-1)).run bytesLibfprint w
        [[.deviceOpened true], [.stopByUser]]).state.dev := by
  obtain ⟨w, hw⟩ : ∃ w, Machine.run (bioOpsStep bytesLibfprint) idleWorld failedEnroll = some w :=
    ⟨_, rfl⟩
  exact ⟨w, hw, (run_told ⟨by decide, by decide, by decide⟩ hw (.identify 1000 0 (-1))
    [[.deviceOpened true], [.stopByUser]]).2.2⟩

end BiometricAuth
