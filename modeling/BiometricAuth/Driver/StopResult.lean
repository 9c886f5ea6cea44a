import BiometricAuth.Driver.Identify
import BiometricAuth.Driver.Idle

/-!
# What a stop is reported as

The stop branch of a polling loop writes a relative result: the type of `dev_status` in front of
`OPS_COMM_STOP_BY_USER`. So the result is of the operation's own range only if the operation has
put a status of its range there, which identify and search have not (they put their type), and an
enroll has no more once its callback has stored a print. After the branch the loop waits for the end
of the operation, and a callback that reports during that time has the last word.

`BioOps.loop` is an operation up to the exit of its loop. Main result: `stop_ownRange_iff`, for the
five operations that poll.
-/

namespace BiometricAuth

open Process World

/-! ### The operations that poll -/

/-- The type of an operation (`OPS_TYPE_ENROLL` and the others). -/
def BioOps.opsType : BioOps → ℤ
  | .enroll .. => opsTypeEnroll
  | .verify .. => opsTypeVerify
  | .identify .. => opsTypeIdentify
  | .search .. => opsTypeSearch
  | .clean .. => opsTypeClean
  | .capture => opsTypeCapture
  | .getFeatureList .. => opsTypeGetFlist
  | .featureRename .. => opsTypeRename

section Loop

variable {π : Type} (fp : Libfprint π)

/-- The operation of the driver up to the exit of its polling loop; `none` if it has no loop or
does not come to it. -/
def BioOps.loop : BioOps → Driver π (Option Exit)
  | .enroll uid idx idxName => do
    let w ← Proc.get
    let idx ← Proc.ofOption (enrollIndex w.uuidOf w.store.db w.dev uid idx)
    Proc.modify fun w =>
      World.call (World.startAsync
        { w with dev := w.dev.setDevStatus devsEnrollDoing, enrollData := ⟨uid, idx, idxName⟩ })
        .deviceEnroll .deviceEnroll
    some <$> awaitCompletion (opPoller fp) opsEnrollTimeout notifyEnrollTimeout
  | .verify uid idx => do
    let w ← Proc.get
    Proc.modify fun w => World.startAsync { w with dev := w.dev.setDevStatus devsVerifyDoing }
    let data ← Proc.ofOption (verifyTemplate w uid idx)
    match fp.deserialize data with
    | none => return none
    | some verifyPrint =>
      Proc.modify fun w => w.call .deviceVerify (.deviceVerify verifyPrint)
      some <$> awaitCompletion (opPoller fp) opsVerifyTimeout notifyVerifyTimeout
  | .identify uid idxStart idxEnd => do
    Proc.modify fun w =>
      World.startAsync
        { w with
          identifyData := ⟨uid, idxStart, idxEnd⟩
          dev := w.dev.setDevStatus opsTypeIdentify }
    let w ← Proc.get
    let prints ← Proc.ofOption
      (createPrints fp.deserialize w.uuidOf w.priv.aesKey w.store.db w.dev uid idxStart idxEnd)
    Proc.modify fun w => w.call .deviceIdentify (.deviceIdentify prints)
    some <$> awaitCompletion (opPoller fp) opsIdentifyTimeout notifyIdentifyTimeout
  | .search uid idxStart idxEnd => do
    Proc.modify fun w =>
      { w with
        searchData := { uid, idxStart, idxEnd, index := 0, foundHead := [], found := some 0 }
        dev := (w.dev.setDevStatus opsTypeSearch).setNotifyAbsMid midExtendedMessage }
    some <$> searchLoop fp uid idxEnd
  | .capture => do
    Proc.modify fun w =>
      (World.startAsync
        { w with captureData := none, dev := w.dev.setDevStatus devsCaptureDoing }).call
        .deviceCapture .deviceCapture
    some <$> awaitCompletion (opPoller fp) opsCaptureTimeout notifyCaptureTimeout
  | .clean .. | .getFeatureList .. | .featureRename .. => return none

/-- `community_ops_close` is answered in time. -/
def ClosesInTime (w : World π) (es : List (List (Event π))) (w' : World π)
    (es' : List (List (Event π))) : Prop :=
  ∃ w₁, (openPoller fp).poll w.setAsynRunning.startClose es = .ret .done w₁ es' ∧
    w' = w₁.setCtrlFlag .idle

end Loop

/-! ### The condition -/

namespace Clock

variable {π : Type}

/-- What an event does while libfprint verifies; `finish` says that it has reported. -/
def deliverVerify (c : Clock) : Event π → Option Clock
  | .matchReport .error => some c
  | .matchReport _ =>
    some (if c.pending = some .deviceVerify then { c with finish := some .print } else c)
  | .verifyCompleted =>
    some (if c.pending = some .deviceVerify then { c with pending := none, asynFlag := .done }
      else c)
  | .stopByUser => c.deliver (π := π) .stopByUser
  | _ => some c

/-- The loop of verify; with the stop the reports are counted anew. -/
def verifyPoller : Poller Clock (Event π) :=
  { (opPoller : Poller Clock (Event π)) with
    deliver := deliverVerify
    stop c := { c with ctrlFlag := .stopped, idle := true, finish := none, stopped := some true } }

/-- Verify is under way. -/
def startVerify (c : Clock) : Clock :=
  { c with
    idle := false, asynFlag := .running, timeused := 0, pending := some .deviceVerify,
    finish := none, stopped := none }

end Clock

/-- The result is of the operation's own range when the loop is left by the stop: the device is
enrolled, verified or captured from, an enroll has not ended with a print, and a verify has reported
nothing since the stop. -/
def BioOps.StopInRange {π : Type} (w : World π) (es : List (List (Event π))) : BioOps → Prop
  | .enroll .. => ∀ c es', Clock.opPoller.poll w.clock.startEnroll es = .ret .stopped c es' →
      c.finish ≠ some .print
  | .verify .. => ∀ c es', Clock.verifyPoller.poll w.clock.startVerify es = .ret .stopped c es' →
      c.finish ≠ some .print
  | .capture => True
  | _ => False

section Stop

variable {π : Type} {fp : Libfprint π} {w w₀ w₁ w' : World π} {c : Clock}
  {es es₀ es₁ es' : List (List (Event π))}

/-! ### While an operation other than enroll is waited for -/

theorem deliver_devStatus_of_ne {e : Event π} (he : w.deliver fp e = some w')
    (hne : w.pending ≠ some .deviceEnroll) : w'.dev.devStatus = w.dev.devStatus :=
  (deliver_devStatus he).resolve_right fun henroll => hne henroll.1

/-- The driver waits for `async` in the status `status`. -/
structure Waits (async : Async) (status : ℤ) (w : World π) : Prop where
  devStatus : w.dev.devStatus = status
  pending : w.pending = some async ∨ w.pending = none

/-- The driver waits for the end of `async` after the stop; what the callbacks can make of the
result is in `R`. -/
structure WaitsOn (async : Async) (R : ℤ → Prop) (w : World π) : Prop where
  opsResult : R w.dev.opsResult
  pending : w.pending = some async ∨ w.pending = none

theorem pending_deliver {async : Async} (h : w.pending = some async ∨ w.pending = none)
    {e : Event π} (he : w.deliver fp e = some w') :
    w'.pending = some async ∨ w'.pending = none := by
  rcases (deliver_frame he).pending with hp | hp
  · rwa [hp]
  · exact .inr hp

theorem Waits.deliver {async : Async} {status : ℤ} (hasync : async ≠ .deviceEnroll)
    (h : Waits async status w) {e : Event π} (he : w.deliver fp e = some w') :
    Waits async status w' := by
  have hne : w.pending ≠ some .deviceEnroll := by
    rcases h.pending with hp | hp <;> simp [hp, hasync]
  exact ⟨(deliver_devStatus_of_ne he hne).trans h.devStatus, pending_deliver h.pending he⟩

/-- The results an operation can be left with by the stop and by the callbacks after it. -/
theorem awaitCompletion_stopped {async : Async} {status result mid : ℤ} {R : ℤ → Prop}
    (hasync : async ≠ .deviceEnroll)
    (hR : ∀ w e w', WaitsOn async R w → w.deliver fp e = some w' → R w'.dev.opsResult)
    (hstop : R (status.tdiv 100 * 100 + opsCommStopByUser)) :
    Proc.Returns (Waits async status) (awaitCompletion (opPoller fp) result mid) fun exit w =>
      (exit = .stopped → R w.dev.opsResult) ∧ (exit = .done → w.dev.devStatus = status) := by
  intro w es exit w' es' hw hret
  obtain ⟨w₁, hpoll, rfl⟩ := awaitCompletion_eq_ret.mp hret
  have hexit := Poller.poll_invariant (P := Waits async status) (Q := WaitsOn async R)
    (fun _ _ _ hs he => hs.deliver hasync he) (fun _ hs _ => ⟨hs.devStatus, hs.pending⟩)
    (fun w hs _ => ⟨by rw [← hs.devStatus] at hstop; exact hstop, hs.pending⟩)
    (fun _ _ _ hs he => ⟨hR _ _ _ hs he, pending_deliver hs.pending he⟩) hw hpoll
  cases exit with
  | done => exact ⟨nofun, fun _ => hexit.1.devStatus⟩
  | timeout => exact ⟨nofun, nofun⟩
  | stopped => exact ⟨fun _ => hexit.1.opsResult, nofun⟩

/-- The same with the exit as a value. -/
theorem some_awaitCompletion_stopped {async : Async} {status result mid : ℤ} {R : ℤ → Prop}
    (hasync : async ≠ .deviceEnroll)
    (hR : ∀ w e w', WaitsOn async R w → w.deliver fp e = some w' → R w'.dev.opsResult)
    (hstop : R (status.tdiv 100 * 100 + opsCommStopByUser)) :
    Proc.Returns (Waits async status) (some <$> awaitCompletion (opPoller fp) result mid)
      fun exit w => exit = some .stopped → R w.dev.opsResult := by
  intro w es exit w' es' hw hret
  obtain ⟨exit, hawait, rfl⟩ := Proc.map_eq_ret.mp hret
  have h := awaitCompletion_stopped hasync hR hstop w es exit w' es' hw hawait
  exact fun hstopped => h.1 (Option.some.inj hstopped)

/-- What an event does to the result. -/
theorem deliver_opsResult {e : Event π} (he : w.deliver fp e = some w') :
    w'.dev.opsResult = w.dev.opsResult ∨
    w.pending = some .deviceEnroll ∧ w'.dev.opsResult = opsEnrollSuccess ∨
    w.pending = some .deviceVerify ∧
      (w'.dev.opsResult = opsVerifyMatch ∨ w'.dev.opsResult = opsVerifyNoMatch) ∨
    w.pending = some .deviceIdentify ∧
      (w'.dev.opsResult = opsIdentifyMatch ∨ w'.dev.opsResult = opsIdentifyNoMatch) := by
  cases deliver_inv he with
  | stopByUser => exact .inl (communityOpsStopByUser_opsResult w)
  | deviceOpened ok => cases ok <;> exact .inl rfl
  | captureCompleted image => cases image <;> exact .inl rfl
  | enrollPrint data hpending => exact .inr (.inl ⟨hpending, rfl⟩)
  | verifyReport report hpending =>
    cases report with
    | error => exact .inl rfl
    | noMatch => exact .inr (.inr (.inl ⟨hpending, .inr rfl⟩))
    | matched print => exact .inr (.inr (.inl ⟨hpending, .inl rfl⟩))
  | identifyReport hpending hreport =>
    rename_i report
    obtain ⟨uid, -, -, -, -, -, -, hresult⟩ := onMatchCbIdentify_uid hreport
    cases report with
    | error => exact .inl hresult
    | noMatch => exact .inr (.inr (.inr ⟨hpending, .inr hresult⟩))
    | matched print => exact .inr (.inr (.inr ⟨hpending, .inl hresult⟩))
  | searchReport _ hreport =>
    obtain ⟨data, dev, ctrlFlag, rfl, rfl | rfl, -⟩ := exists_of_onMatchCbSearch hreport <;>
      exact .inl rfl
  | ignored | deviceClosed | enrollProgress | enrollError | serializeError | verifyCompleted
    | deviceIdentified => exact .inl rfl

/-- A capture, and a round of a search: no callback touches the result. -/
theorem deliver_opsResult_of_silent {async : Async} {e : Event π}
    (hasync : async = .deviceCapture ∨ async = .deviceSearch)
    (hpending : w.pending = some async ∨ w.pending = none) (he : w.deliver fp e = some w') :
    w'.dev.opsResult = w.dev.opsResult := by
  rcases deliver_opsResult he with h | ⟨hp, -⟩ | ⟨hp, -⟩ | ⟨hp, -⟩
  · exact h
  all_goals
    rw [hp] at hpending
    rcases hasync with rfl | rfl <;> simp at hpending

/-- The loop of capture. -/
theorem captureLoop_stopped :
    Proc.Returns (fun _ => True) (BioOps.capture.loop fp) fun exit w =>
      exit = some .stopped → w.dev.opsResult = opsTypeCapture * 100 + opsCommStopByUser := by
  refine .modify_bind (M := Waits .deviceCapture devsCaptureDoing)
    (fun _ _ => ⟨rfl, .inl rfl⟩) ?_
  exact some_awaitCompletion_stopped (by decide)
    (R := fun r => r = opsTypeCapture * 100 + opsCommStopByUser) (fun w e w' hs he =>
      (deliver_opsResult_of_silent (.inl rfl) hs.pending he).trans hs.opsResult) (by decide)

/-- The loop of identify: the stop leaves the general result, unless a callback still reports. -/
theorem identifyLoop_stopped {uid idxStart idxEnd : ℤ} :
    Proc.Returns (fun _ => True) ((BioOps.identify uid idxStart idxEnd).loop fp) fun exit w =>
      exit = some .stopped → w.dev.opsResult = opsCommStopByUser ∨
        w.dev.opsResult = opsIdentifyMatch ∨ w.dev.opsResult = opsIdentifyNoMatch := by
  refine .modify_bind (M := fun w => w.dev.devStatus = opsTypeIdentify) (fun _ _ => rfl)
    (.get_bind fun w₀ hw₀ => .ofOption_bind fun prints _ => ?_)
  refine .modify_bind (M := Waits .deviceIdentify opsTypeIdentify) ?_ ?_
  · rintro _ rfl
    exact ⟨hw₀, .inl rfl⟩
  refine some_awaitCompletion_stopped (by decide)
    (R := fun r => r = opsCommStopByUser ∨ r = opsIdentifyMatch ∨ r = opsIdentifyNoMatch)
    (fun w e w' hs he => ?_) (.inl rfl)
  rcases deliver_opsResult he with h | ⟨hp, -⟩ | ⟨hp, -⟩ | ⟨-, h⟩
  · rw [h]
    exact hs.opsResult
  · exact absurd hs.pending (by simp [hp])
  · exact absurd hs.pending (by simp [hp])
  · exact .inr h

/-- The loop of search, by induction on the rounds: no callback touches the result. -/
theorem searchRounds_stopped {uid idxEnd : ℤ} (rounds : ℕ) :
    Proc.Returns (fun w => w.dev.devStatus = opsTypeSearch) (searchRounds fp uid idxEnd rounds)
      fun exit w => exit = .stopped → w.dev.opsResult = opsCommStopByUser := by
  induction rounds with
  | zero => exact fun w es exit w' es' _ hret => nomatch hret
  | succ rounds ih =>
    refine .get_bind fun w hw => .ite (fun _ => ?_) fun _ => ?_
    · exact .pure fun _ _ => nofun
    · -- a round begins and ends with the status of the search, unless it is stopped
      have hround : Proc.Returns (fun w => w.dev.devStatus = opsTypeSearch)
          (searchRound fp uid idxEnd) fun exit w =>
            (exit = .stopped → w.dev.opsResult = opsCommStopByUser) ∧
              (exit = .done → w.dev.devStatus = opsTypeSearch) := by
        refine .modify_bind (M := fun w => w.dev.devStatus = opsTypeSearch) (fun _ h => h)
          (.get_bind fun w hw => .ofOption_bind fun prints _ => ?_)
        refine .modify_bind (M := Waits .deviceSearch opsTypeSearch) ?_ ?_
        · -- the gallery is read, and the identification asked for
          rintro _ rfl
          exact ⟨hw, .inl rfl⟩
        · exact awaitCompletion_stopped (by decide) (R := fun r => r = opsCommStopByUser)
            (fun w e w' hs he =>
              (deliver_opsResult_of_silent (.inr rfl) hs.pending he).trans hs.opsResult) rfl
      refine .bind (hround.mono (fun _ heq => heq ▸ hw) fun _ _ h => h) fun exit => ?_
      -- a round that was done is followed by the cursor and the rounds left
      refine .ite (fun hdone => .get_bind fun w' hw' => ?_) fun _ => .pure fun w h => h.1
      refine .ofOption_bind fun index _ => .modify_bind
        (M := fun w => w.dev.devStatus = opsTypeSearch) (fun w'' heq => ?_) ih
      rw [heq]
      -- the cursor leaves the status alone
      exact hw'.2 hdone

theorem searchLoop_stopped {uid idxStart idxEnd : ℤ} :
    Proc.Returns (fun _ => True) ((BioOps.search uid idxStart idxEnd).loop fp) fun exit w =>
      exit = some .stopped → w.dev.opsResult = opsCommStopByUser := by
  refine .modify_bind (M := fun w => w.dev.devStatus = opsTypeSearch) (fun _ _ => rfl) ?_
  intro w es exit w' es' hw hret
  obtain ⟨exit, hloop, rfl⟩ := Proc.map_eq_ret.mp hret
  exact fun hstopped =>
    searchRounds_stopped (es.length + 1) w es exit w' es' hw hloop (Option.some.inj hstopped)

/-! ### Verify -/

/-- The driver while it verifies, next to its clock. -/
structure VerifyPhase (w : World π) (c : Clock) : Prop where
  shows : Shows w c
  pending : w.pending = some .deviceVerify ∨ w.pending = none
  devStatus : c.stopped = none → w.dev.devStatus = devsVerifyDoing
  /-- After the stop the result is that of the stop, or of a later report. -/
  opsResult : c.stopped ≠ none →
    if c.finish = some .print then
      w.dev.opsResult = opsVerifyMatch ∨ w.dev.opsResult = opsVerifyNoMatch
    else w.dev.opsResult = opsTypeVerify * 100 + opsCommStopByUser

/-- A match report. -/
theorem VerifyPhase.matchReport (h : VerifyPhase w c) (hpending : w.pending = some .deviceVerify)
    (report : MatchReport π) :
    ∃ c', c.deliverVerify (.matchReport report) = some c' ∧
      VerifyPhase (w.onMatchCbVerify report) c' ∧ c'.stopped = c.stopped := by
  have hs := h.shows
  -- no report touches the flags or the time
  have hshows : ∀ finish, Shows (w.onMatchCbVerify report) { c with finish := finish } := by
    intro finish
    cases report <;>
      exact ⟨hs.idle, hs.asynFlag, hs.ctrlFlag, hs.timeused, hs.timeoutMS, hs.pending⟩
  have hstatus : (w.onMatchCbVerify report).dev.devStatus = w.dev.devStatus := by
    cases report <;> rfl
  have hpending' : (w.onMatchCbVerify report).pending = w.pending := by
    cases report <;> rfl
  cases report with
  | error =>
    -- an error says nothing about the match
    exact ⟨c, rfl, ⟨hshows c.finish, hpending'.symm ▸ h.pending,
      fun hc => hstatus.trans (h.devStatus hc), h.opsResult⟩, rfl⟩
  | noMatch =>
    -- a report sets the result, whichever it is
    refine ⟨{ c with finish := some .print }, ?_, ⟨hshows _, hpending'.symm ▸ h.pending,
      fun hc => hstatus.trans (h.devStatus hc), fun _ => ?_⟩, rfl⟩
    · exact congrArg some (if_pos (hs.pending.trans hpending))
    · rw [if_pos rfl]
      exact .inr rfl
  | matched print =>
    -- and so does a match
    refine ⟨{ c with finish := some .print }, ?_, ⟨hshows _, hpending'.symm ▸ h.pending,
      fun hc => hstatus.trans (h.devStatus hc), fun _ => ?_⟩, rfl⟩
    · exact congrArg some (if_pos (hs.pending.trans hpending))
    · rw [if_pos rfl]
      exact .inl rfl

theorem VerifyPhase.deliver (h : VerifyPhase w c) {e : Event π} (he : w.deliver fp e = some w') :
    ∃ c', c.deliverVerify e = some c' ∧ VerifyPhase w' c' ∧ c'.stopped = c.stopped := by
  have hne : w.pending ≠ some .deviceOpen ∧ w.pending ≠ some .deviceClose ∧
      w.pending ≠ some .deviceEnroll ∧ w.pending ≠ some .deviceCapture ∧
      w.pending ≠ some .deviceIdentify ∧ w.pending ≠ some .deviceSearch := by
    rcases h.pending with hp | hp <;> simp [hp]
  -- only the events of a verification can do anything
  obtain ⟨hopen, hclose, henroll, hcapture, hidentify, hsearch⟩ := hne
  have hs := h.shows
  cases e with
  | matchReport report =>
    -- libfprint reports to the callback as long as it is working on the print
    by_cases hp : w.pending = some .deviceVerify
    · simp only [World.deliver, hp, Option.some.injEq] at he
      subst he
      exact h.matchReport hp report
    · -- libfprint is done with it already
      have hnone := h.pending.resolve_left hp
      simp only [World.deliver, hnone, Option.some.injEq] at he
      subst he
      refine ⟨c, ?_, h, rfl⟩
      cases report with
      | error => rfl
      | noMatch | matched => exact congrArg some (if_neg (by rwa [hs.pending]))
  | verifyCompleted =>
    -- the completion sets the flag
    obtain rfl := Option.some.inj he
    refine ⟨_, rfl, ?_⟩
    by_cases hp : w.pending = some .deviceVerify
    · rw [if_pos hp, if_pos (hs.pending.trans hp)]
      exact ⟨⟨⟨hs.idle, rfl, hs.ctrlFlag, hs.timeused, hs.timeoutMS, rfl⟩, .inr rfl, h.devStatus,
        h.opsResult⟩, rfl⟩
    · rw [if_neg hp, if_neg (by rwa [hs.pending])]
      exact ⟨h, rfl⟩
  | stopByUser =>
    -- a stop keeps what has been reported
    obtain rfl := Option.some.inj he
    obtain ⟨c', hc', hshows, hfinish, hstopped⟩ := hs.stopByUser
    refine ⟨c', hc', ⟨hshows, ?_, ?_, ?_⟩, hstopped⟩
    · rw [communityOpsStopByUser_pending]
      exact h.pending
    · rw [communityOpsStopByUser_devStatus, hstopped]
      exact h.devStatus
    · rw [communityOpsStopByUser_opsResult, hstopped, hfinish]
      exact h.opsResult
  | deviceOpened | deviceClosed | enrollProgress | enrollCompleted | captureCompleted
    | deviceIdentified =>
    -- nobody waits for these
    refine ⟨c, rfl, ?_⟩
    simp only [World.deliver, hopen, hclose, henroll, hcapture, hidentify, hsearch, if_false,
      or_self] at he
    obtain rfl := Option.some.inj he
    exact ⟨h, rfl⟩

/-- The loop of verify. -/
theorem simulates_verifyPoller :
    (opPoller fp).Simulates Clock.verifyPoller
      (fun w c => VerifyPhase w c ∧ c.stopped = none)
      (fun w c => VerifyPhase w c ∧ c.stopped ≠ none) := by
  refine simulates_of_phase ⟨fun _ => rfl, fun _ => rfl, fun _ => rfl⟩ (fun _ _ h => h.shows)
    (fun _ _ _ _ h he => h.deliver he) (fun w c h => ⟨?_, rfl⟩) (fun w c h hnot => ⟨?_, nofun⟩)
  · exact ⟨h.shows.tick fp, h.pending, h.devStatus, h.opsResult⟩
  · refine ⟨h.shows.stop fp _ _, h.pending, nofun, fun _ => ?_⟩
    show w.dev.devStatus.tdiv 100 * 100 + 3 = 303
    rw [h.devStatus hnot]
    rfl

/-! ### The whole call -/

/-- A device that has been opened. -/
theorem opened_of_ret_zero (h : communityOpsOpen fp w es = .ret 0 w₀ es₀) :
    Enabled w ∧ Enabled w₀ ∧ w₀.dev.opsResult = opsOpenSuccess := by
  have henable : w.dev.enable = true := by
    by_contra hdisabled
    have hdisabled : w.dev.enable = false := by simpa using hdisabled
    have hrun : (w.setAsynRunning.setCtrlFlag .running).dev.enable = false := hdisabled
    simp only [communityOpsOpen, Proc.modify_bind, Proc.get_bind, hrun, if_true] at h
    cases h
  obtain ⟨hconfig, -, -, hresult⟩ := communityOpsOpen_spec henable h
  rcases hresult with ⟨-, hresult⟩ | ⟨h, -⟩
  · exact ⟨henable, hconfig.enable.trans henable, hresult⟩
  · exact absurd h (by decide)

/-- Waiting in a loop, with the exit as a value. -/
theorem some_awaitCompletion_returns {result mid : ℤ} :
    Proc.Returns Enabled (some <$> awaitCompletion (opPoller fp) result mid)
      fun _ => Enabled := by
  intro w es exit w' es' hw hret
  obtain ⟨exit, hawait, -⟩ := Proc.map_eq_ret.mp hret
  exact (awaitCompletion_returns w es exit w' es' hw hawait).1

/-- The device stays enabled up to the exit of the loop. -/
theorem BioOps.loop_returns (call : BioOps) :
    Proc.Returns Enabled (call.loop fp) fun _ => Enabled := by
  cases call with
  | enroll uid idx idxName =>
    -- the index is looked for, and the enroll is waited for
    refine .get_bind fun w hw => .ofOption_bind fun idx _ => ?_
    refine .modify_bind (M := Enabled) ?_ some_awaitCompletion_returns
    rintro _ rfl
    exact hw
  | verify uid idx =>
    refine .get_bind fun w hw => .modify_bind (M := Enabled) ?_ (.ofOption_bind fun data _ => ?_)
    · -- the template is read
      rintro _ rfl
      exact hw
    · -- a template that is no print ends the call
      cases fp.deserialize data with
      | none => exact .pure fun _ h => h
      | some print => exact .modify_bind (M := Enabled) (fun _ h => h) some_awaitCompletion_returns
  | identify uid idxStart idxEnd =>
    refine .modify_bind (M := Enabled) (fun _ h => h) (.get_bind fun w hw => ?_)
    -- the gallery is built first
    refine .ofOption_bind fun prints _ => .modify_bind (M := Enabled) ?_
      some_awaitCompletion_returns
    rintro _ rfl
    exact hw
  | search uid idxStart idxEnd =>
    refine .modify_bind (M := Enabled) (fun _ h => h) ?_
    -- the rounds keep the device enabled
    intro w es exit w' es' hw hret
    obtain ⟨exit, hloop, -⟩ := Proc.map_eq_ret.mp hret
    exact (searchRounds_returns (es.length + 1) w es exit w' es' hw hloop).1
  | capture => exact .modify_bind (M := Enabled) (fun _ h => h) some_awaitCompletion_returns
  | clean | getFeatureList | featureRename => exact .pure fun _ h => h

/-- An operation that returns on an opened device, and the call with it once the device is
closed. -/
theorem bioOps_of_closesInTime {α : Type} {failed a : α} {op : Driver π α}
    (hopen : communityOpsOpen fp w es = .ret 0 w₀ es₀) (hop : op w₀ es₀ = .ret a w₁ es₁)
    (henable₁ : Enabled w₁) (hclose : ClosesInTime fp w₁ es₁ w' es') :
    bioOps fp failed op w es = .ret a w' es' := by
  obtain ⟨henable, -, -⟩ := opened_of_ret_zero hopen
  obtain ⟨w₂, hpoll, rfl⟩ := hclose
  refine (bioOps_eq_ret henable).mpr ⟨0, w₀, es₀, w₁, es₁, hopen, (if_pos rfl).mpr hop, ?_⟩
  exact (communityOpsClose_eq_ret fp henable₁).mpr ⟨.done, w₂, hpoll, Or.inl ⟨rfl, rfl⟩⟩

/-- An operation whose loop is left by the stop returns at once, and the call with it. -/
theorem BioOps.run_of_stopped {call : BioOps}
    (hopen : communityOpsOpen fp w es = .ret 0 w₀ es₀)
    (hloop : call.loop fp w₀ es₀ = .ret (some .stopped) w₁ es₁)
    (hclose : ClosesInTime fp w₁ es₁ w' es') : call.run fp w es = .ret () w' es' := by
  obtain ⟨henable, henable₀, -⟩ := opened_of_ret_zero hopen
  have henable₁ := call.loop_returns _ _ _ _ _ henable₀ hloop
  -- between an open and a close that both return, the operation is all that counts
  have hframe : ∀ {α : Type} {failed a : α} {op : Driver π α}, op w₀ es₀ = .ret a w₁ es₁ →
      bioOps fp failed op w es = .ret a w' es' :=
    fun hop => bioOps_of_closesInTime hopen hop henable₁ hclose
  -- the device is enabled, so every operation comes to its loop
  have hdisabled : ¬ w₀.dev.enable = false := by
    rw [show w₀.dev.enable = true from henable₀]
    decide
  cases call with
  | enroll uid idx idxName =>
    -- the index is chosen before the loop
    refine Proc.discard_eq_ret.mpr ⟨-1, hframe ?_⟩
    simp only [loop, Proc.get_bind] at hloop
    obtain ⟨idx', w₂, es₂, hidx, hloop⟩ := Proc.bind_eq_ret.mp hloop
    obtain ⟨exit, hawait, hexit⟩ := Proc.map_eq_ret.mp hloop
    obtain rfl := Option.some.inj hexit
    simp only [communityOpsEnroll, Proc.get_bind, if_neg hdisabled]
    refine Proc.bind_eq_ret.mpr ⟨idx', w₂, es₂, hidx, ?_⟩
    simp only [Proc.modify_bind]
    exact Proc.bind_eq_ret.mpr ⟨_, _, _, hawait, rfl⟩
  | verify uid idx =>
    -- the print is read before the loop, and a print that cannot be read has no loop
    refine Proc.discard_eq_ret.mpr ⟨-1, hframe ?_⟩
    simp only [loop, Proc.get_bind, Proc.modify_bind] at hloop
    obtain ⟨data, w₂, es₂, hdata, hloop⟩ := Proc.bind_eq_ret.mp hloop
    simp only [communityOpsVerify, Proc.get_bind, if_neg hdisabled, Proc.modify_bind]
    refine Proc.bind_eq_ret.mpr ⟨data, w₂, es₂, hdata, ?_⟩
    cases hprint : fp.deserialize data with
    | none =>
      rw [hprint] at hloop
      cases (Proc.pure_eq_ret.mp hloop).1
    | some print =>
      rw [hprint] at hloop
      obtain ⟨exit, hawait, hexit⟩ := Proc.map_eq_ret.mp hloop
      obtain rfl := Option.some.inj hexit
      simp only [Proc.modify_bind]
      exact Proc.bind_eq_ret.mpr ⟨_, _, _, hawait, rfl⟩
  | identify uid idxStart idxEnd =>
    -- the prints are read before the loop
    refine Proc.discard_eq_ret.mpr ⟨-1, hframe ?_⟩
    simp only [loop, Proc.get_bind, Proc.modify_bind] at hloop
    obtain ⟨prints, w₂, es₂, hprints, hloop⟩ := Proc.bind_eq_ret.mp hloop
    obtain ⟨exit, hawait, hexit⟩ := Proc.map_eq_ret.mp hloop
    obtain rfl := Option.some.inj hexit
    simp only [communityOpsIdentify, Proc.get_bind, Proc.modify_bind, if_neg hdisabled]
    refine Proc.bind_eq_ret.mpr ⟨prints, w₂, es₂, hprints, ?_⟩
    simp only [Proc.modify_bind]
    exact Proc.bind_eq_ret.mpr ⟨_, _, _, hawait, rfl⟩
  | search uid idxStart idxEnd =>
    -- the rounds are the loop
    refine Proc.discard_eq_ret.mpr ⟨[], hframe ?_⟩
    simp only [loop, Proc.modify_bind] at hloop
    obtain ⟨exit, hsearch, hexit⟩ := Proc.map_eq_ret.mp hloop
    obtain rfl := Option.some.inj hexit
    simp only [communityOpsSearch, Proc.get_bind, Proc.modify_bind, if_neg hdisabled]
    exact Proc.bind_eq_ret.mpr ⟨_, _, _, hsearch, rfl⟩
  | capture =>
    -- a capture that is stopped returns no picture
    refine Proc.discard_eq_ret.mpr ⟨some (bioNewString none), ?_⟩
    simp only [loop, Proc.modify_bind] at hloop
    obtain ⟨exit, hawait, hexit⟩ := Proc.map_eq_ret.mp hloop
    obtain rfl := Option.some.inj hexit
    have hcapture : communityOpsCapture fp w₀ es₀ = .ret none w₁ es₁ := by
      simp only [communityOpsCapture, Proc.get_bind, Proc.modify_bind, if_neg hdisabled]
      refine Proc.bind_eq_ret.mpr ⟨none, w₁, es₁, ?_, rfl⟩
      simp only [fingerCapture, Proc.modify_bind]
      exact Proc.bind_eq_ret.mpr ⟨_, _, _, hawait, rfl⟩
    simp only [bioOpsCapture, Proc.get_bind]
    refine Proc.bind_eq_ret.mpr ⟨none, w', es', hframe hcapture, ?_⟩
    rw [if_neg (by rw [show w.dev.enable = true from henable]; decide)]
    rfl
  | clean | getFeatureList | featureRename => cases (Proc.pure_eq_ret.mp hloop).1

/-- Close that is answered in time leaves the result alone. -/
theorem ClosesInTime.opsResult (h : ClosesInTime fp w es w' es') :
    w'.dev.opsResult = w.dev.opsResult := by
  obtain ⟨w₁, hpoll, rfl⟩ := h
  exact (poll_openPoller_inv (Or.inr rfl) hpoll).opsResult

/-- The loop of enroll, left by the stop. -/
theorem enrollLoop_stopped {uid idx : ℤ} {idxName : String}
    (hopened : w.dev.opsResult = opsOpenSuccess)
    (h : (BioOps.enroll uid idx idxName).loop fp w es = .ret (some .stopped) w' es') :
    ∃ c', Clock.opPoller.poll w.clock.startEnroll es = .ret .stopped c' es' ∧
      (w'.dev.opsResult = opsTypeEnroll * 100 + opsCommStopByUser ↔ c'.finish ≠ some .print) := by
  simp only [BioOps.loop, Proc.get_bind] at h
  obtain ⟨idx', w₂, es₂, hidx, hwait⟩ := Proc.bind_eq_ret.mp h
  obtain ⟨-, hw, hes⟩ := Proc.ofOption_eq_ret.mp hidx
  rw [hw, hes] at hwait
  simp only [Proc.modify_bind] at hwait
  obtain ⟨exit, hawait, hexit⟩ := Proc.map_eq_ret.mp hwait
  obtain rfl := Option.some.inj hexit
  obtain ⟨w₁, hpoll, rfl⟩ := awaitCompletion_eq_ret.mp hawait
  obtain ⟨c', hc', hphase, hstopped⟩ := poll_opPoller_phase (c := w.clock.startEnroll) hpoll
    ⟨⟨rfl, rfl, rfl, rfl, rfl, rfl⟩, .refl _, rfl, hopened, rfl, rfl, nofun, rfl⟩ rfl
  refine ⟨c', hc', ?_⟩
  have hsome := hstopped.mp rfl
  rw [show w'.dev.opsResult = c'.opsResult from hphase.opsResult, Clock.opsResult]
  by_cases hfinish : c'.finish = some .print
  · -- the callback has had the last word, or has taken the status with it
    rw [if_pos hfinish]
    refine iff_of_false ?_ (not_not.mpr hfinish)
    split <;> decide
  · rw [if_neg hfinish, if_pos hsome]
    exact iff_of_true rfl hfinish

/-- The loop of verify, left by the stop. -/
theorem verifyLoop_stopped {uid idx : ℤ}
    (h : (BioOps.verify uid idx).loop fp w es = .ret (some .stopped) w' es') :
    ∃ c', Clock.verifyPoller.poll w.clock.startVerify es = .ret .stopped c' es' ∧
      (w'.dev.opsResult = opsTypeVerify * 100 + opsCommStopByUser ↔ c'.finish ≠ some .print) := by
  simp only [BioOps.loop, Proc.get_bind, Proc.modify_bind] at h
  obtain ⟨data, w₂, es₂, hdata, hwait⟩ := Proc.bind_eq_ret.mp h
  -- the template has been read, and nothing else has happened
  obtain ⟨-, hw, hes⟩ := Proc.ofOption_eq_ret.mp hdata
  rw [hw, hes] at hwait
  cases hprint : fp.deserialize data with
  | none =>
    -- it was no print, so there was no loop to stop
    rw [hprint] at hwait
    exact nomatch (Proc.pure_eq_ret.mp hwait).1
  | some print =>
    rw [hprint] at hwait
    obtain ⟨exit, hawait, hexit⟩ := Proc.map_eq_ret.mp hwait
    -- the loop was left by the stop
    obtain rfl := Option.some.inj hexit
    obtain ⟨w₁, hpoll, rfl⟩ := awaitCompletion_eq_ret.mp hawait
    -- the phase begins with the call of libfprint
    have hphase : VerifyPhase ((World.startAsync
        { w with dev := w.dev.setDevStatus devsVerifyDoing }).call .deviceVerify
        (.deviceVerify print)) w.clock.startVerify :=
      ⟨⟨rfl, rfl, rfl, rfl, rfl, rfl⟩, .inl rfl, fun _ => rfl, fun hne => absurd rfl hne⟩
    obtain ⟨c', hc', hphase, hstopped⟩ :=
      Poller.poll_simulates simulates_verifyPoller ⟨hphase, rfl⟩ hpoll
    refine ⟨c', hc', ?_⟩
    -- the result that is left depends on whether a report came after the stop
    have hresult := hphase.opsResult hstopped
    by_cases hfinish : c'.finish = some .print
    · rw [if_pos hfinish] at hresult
      refine iff_of_false ?_ (not_not.mpr hfinish)
      rcases hresult with hresult | hresult <;> rw [hresult] <;> decide
    · rw [if_neg hfinish] at hresult
      exact iff_of_true hresult hfinish

/-- **What a stop is reported as.** A call is stopped by the user, whatever happened on the device
before, at whatever tick, and the device is closed in time. Then the result is of the operation's
own range exactly if a status of that range was there for the stop branch to find, and no callback
has reported since. -/
theorem stop_ownRange_iff {call : BioOps} (hopen : communityOpsOpen fp w es = .ret 0 w₀ es₀)
    (hloop : call.loop fp w₀ es₀ = .ret (some .stopped) w₁ es₁)
    (hclose : ClosesInTime fp w₁ es₁ w' es') :
    call.run fp w es = .ret () w' es' ∧
      (w'.dev.opsResult = call.opsType * 100 + opsCommStopByUser ↔ call.StopInRange w₀ es₀) := by
  refine ⟨BioOps.run_of_stopped hopen hloop hclose, ?_⟩
  rw [hclose.opsResult]
  cases call with
  | enroll uid idx idxName =>
    -- the clock of enroll says whether its callback has reported since the stop
    obtain ⟨c', hc', hiff⟩ := enrollLoop_stopped (opened_of_ret_zero hopen).2.2 hloop
    refine hiff.trans ⟨fun hfinish c es' hc => ?_, fun h => h c' es₁ hc'⟩
    obtain ⟨-, rfl, -⟩ := Outcome.ret.inj (hc'.symm.trans hc)
    exact hfinish
  | verify uid idx =>
    -- and so does that of verify
    obtain ⟨c', hc', hiff⟩ := verifyLoop_stopped hloop
    refine hiff.trans ⟨fun hfinish c es' hc => ?_, fun h => h c' es₁ hc'⟩
    obtain ⟨-, rfl, -⟩ := Outcome.ret.inj (hc'.symm.trans hc)
    exact hfinish
  | capture => exact iff_of_true (captureLoop_stopped _ _ _ _ _ trivial hloop rfl) trivial
  | identify uid idxStart idxEnd =>
    refine iff_of_false ?_ id
    -- the status of identify is none of its own range
    rcases identifyLoop_stopped _ _ _ _ _ trivial hloop rfl with h | h | h <;> rw [h] <;>
      simp [BioOps.opsType]
  | search uid idxStart idxEnd =>
    refine iff_of_false ?_ id
    -- nor is that of search
    rw [searchLoop_stopped _ _ _ _ _ trivial hloop rfl]
    simp [BioOps.opsType]
  | clean | getFeatureList | featureRename => cases (Proc.pure_eq_ret.mp hloop).1

end Stop

/-- A stopped identify is reported as `OPS_COMM_STOP_BY_USER`. -/
theorem not_ownRange_identify :
    ∃ w₀ es₀ w₁ es₁ w' es',
      communityOpsOpen bytesLibfprint idleWorld
        [[.deviceOpened true], [], [.stopByUser], [.deviceIdentified], [.deviceClosed]] =
          .ret 0 w₀ es₀ ∧
      (BioOps.identify 1000 0 (-1)).loop bytesLibfprint w₀ es₀ = .ret (some .stopped) w₁ es₁ ∧
      ClosesInTime bytesLibfprint w₁ es₁ w' es' ∧
      w'.dev.opsResult ≠ opsTypeIdentify * 100 + opsCommStopByUser :=
  ⟨_, _, _, _, _, _, rfl, rfl, ⟨_, rfl, rfl⟩, by decide⟩

/-- A stopped capture is reported as a capture. -/
theorem ownRange_capture :
    ∃ w' es', BioOps.capture.run bytesLibfprint idleWorld
        [[.deviceOpened true], [], [.stopByUser], [.captureCompleted none], [.deviceClosed]] =
          .ret () w' es' ∧
      w'.dev.opsResult = opsTypeCapture * 100 + opsCommStopByUser := by
  obtain ⟨w₀, es₀, w₁, es₁, w', es', hopen, hloop, hclose⟩ : ∃ w₀ es₀ w₁ es₁ w' es',
      communityOpsOpen bytesLibfprint idleWorld
        [[.deviceOpened true], [], [.stopByUser], [.captureCompleted none], [.deviceClosed]] =
          .ret 0 w₀ es₀ ∧
      BioOps.capture.loop bytesLibfprint w₀ es₀ = .ret (some .stopped) w₁ es₁ ∧
      ClosesInTime bytesLibfprint w₁ es₁ w' es' :=
    ⟨_, _, _, _, _, _, rfl, rfl, ⟨_, rfl, rfl⟩⟩
  obtain ⟨hrun, hiff⟩ := stop_ownRange_iff hopen hloop hclose
  exact ⟨w', es', hrun, hiff.mpr trivial⟩

end BiometricAuth
