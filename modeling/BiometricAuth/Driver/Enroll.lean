import BiometricAuth.Driver.Frame

/-!
# Enroll

What the reply to an Enroll says is `ops_result`, which open, the callback, the loop
and close write in turn; what happened to the database is decided by the callback
alone. Which of them comes last, and so whether the reply tells the truth, depends
on the course of the request: how libfprint ends the enroll, by which exit the loop
is left, and whether close is answered in time.

`Clock` is the part of the driver's state the loops decide by, `enrollCourse` the
course it takes along a schedule, without a result, a database or a print.
`Follows` ties the driver to it, and `bioOpsEnroll_spec` says what result and what
table each course ends with.
-/

namespace BiometricAuth

open Process World

/-! ### The course of an enroll -/

/-- How libfprint's part of an enroll ends. -/
inductive EnrollFinish
  | error | serializeError | print
deriving DecidableEq, Repr

/-- The kind of a result. -/
def EnrollResult.finish : EnrollResult → EnrollFinish
  | .error => .error
  | .serializeError => .serializeError
  | .print _ => .print

/-- What the polling loops decide by. -/
structure Clock where
  /-- `dev_status` is `DEVS_COMM_IDLE`. -/
  idle : Bool
  asynFlag : AsynFlag
  ctrlFlag : CtrlFlag
  timeused : ℤ
  timeoutMS : ℤ
  pending : Option Async
  /-- How the enroll has ended, if it has. -/
  finish : Option EnrollFinish
  /-- Whether the enroll had ended when a stop request was taken note of, if one was. -/
  stopped : Option Bool
deriving DecidableEq, Repr

namespace Clock

variable {π : Type}

/-- What an event does. -/
def deliver (c : Clock) : Event π → Option Clock
  | .deviceOpened ok =>
    some (if c.pending = some .deviceOpen then
      { c with pending := none, asynFlag := if ok then .done else c.asynFlag } else c)
  | .deviceClosed =>
    some (if c.pending = some .deviceClose then { c with pending := none, asynFlag := .done }
      else c)
  | .enrollProgress =>
    some (if c.pending = some .deviceEnroll then { c with timeused := 0 } else c)
  | .enrollCompleted result =>
    some (if c.pending = some .deviceEnroll then
      match result.finish with
      | .error => { c with pending := none, finish := some .error, asynFlag := .done }
      | .serializeError => { c with pending := none, finish := some .serializeError }
      | .print => { c with pending := none, finish := some .print, asynFlag := .done, idle := true }
      else c)
  | .stopByUser =>
    some (if c.idle then c else { c with asynFlag := .running, ctrlFlag := .stoping })
  | _ => some c

/-- The loop of an operation. -/
def opPoller : Poller Clock (Event π) where
  deliver := deliver
  isDone c := c.asynFlag == .done
  timeUp c := decide (c.timeused > c.timeoutMS)
  tick c := { c with timeused := c.timeused + fingerCheckIntervalMs }
  isStopping c := c.ctrlFlag == .stoping
  stop c := { c with ctrlFlag := .stopped, idle := true, stopped := some c.finish.isSome }

/-- The loop of open and close. -/
def openPoller : Poller Clock (Event π) := { opPoller with isStopping := fun _ => false }

/-- Open is under way. -/
def startOpen (c : Clock) : Clock :=
  { c with idle := false, asynFlag := .running, ctrlFlag := .running, pending := some .deviceOpen }

/-- Enroll is under way. -/
def startEnroll (c : Clock) : Clock :=
  { c with
    idle := false, asynFlag := .running, timeused := 0, pending := some .deviceEnroll,
    finish := none, stopped := none }

/-- Close is under way. -/
def startClose (c : Clock) : Clock :=
  { c with asynFlag := .running, pending := some .deviceClose }

end Clock

/-- What the driver knows, as a clock: nothing has ended, nothing was stopped. -/
def World.clock {π : Type} (w : World π) : Clock where
  idle := decide (w.dev.devStatus = devsCommIdle)
  asynFlag := w.priv.asynFlag
  ctrlFlag := w.priv.ctrlFlag
  timeused := w.priv.timeused
  timeoutMS := w.priv.timeoutMS
  pending := w.pending
  finish := none
  stopped := none

/-- The course of an enroll. -/
inductive EnrollCourse
  /-- The device cannot be opened. -/
  | notOpened
  /-- The enroll has ended with `finish`, the loop was left by `exit`, `stopped` as in
  `Clock`, and `closed` says whether close was answered in time. -/
  | opened (finish : Option EnrollFinish) (exit : Exit) (stopped : Option Bool) (closed : Bool)
deriving DecidableEq, Repr

/-- The course an enroll takes. -/
def enrollCourse {π : Type} : Proc Clock (Event π) EnrollCourse := do
  Proc.modify Clock.startOpen
  let opened ← Clock.openPoller.poll
  Proc.modify fun c => { c with idle := true }
  if opened = .done then
    Proc.modify Clock.startEnroll
    let exit ← Clock.opPoller.poll
    Proc.modify fun c => { c with idle := c.idle || exit == .timeout }
    let c ← Proc.get
    Proc.modify Clock.startClose
    let closed ← Clock.openPoller.poll
    return .opened c.finish exit c.stopped (closed == .done)
  else
    Proc.modify Clock.startClose
    let _ ← Clock.openPoller.poll
    return .notOpened

/-- A course after which the reply says whether the row is there; `inserts` says whether
the insert succeeds. -/
def EnrollCourse.Honest (inserts : Bool) : EnrollCourse → Prop
  | .notOpened => True
  | .opened finish exit stopped closed =>
    if finish = some .print then
      if inserts then
        -- the callback has the last word, and the device closes in time
        (exit = .done ∨ exit = .stopped ∧ stopped = some false) ∧ closed = true
      else
        -- a timeout, a stop taken note of later, or close have the last word
        exit = .timeout ∨ exit = .stopped ∧ stopped = some true ∨ closed = false
    else
      -- the callback has left the success of open, which a timeout, a stop or close overwrite
      exit ≠ .done ∨ closed = false

/-! ### The clock shows the driver's flags -/

section Shows

variable {π : Type} {fp : Libfprint π} {w w' w₀ : World π} {c : Clock}
  {es es' : List (List (Event π))}

/-- The clock shows the flags, the counter and the operation under way. -/
structure Shows (w : World π) (c : Clock) : Prop where
  idle : c.idle = decide (w.dev.devStatus = devsCommIdle)
  asynFlag : c.asynFlag = w.priv.asynFlag
  ctrlFlag : c.ctrlFlag = w.priv.ctrlFlag
  timeused : c.timeused = w.priv.timeused
  timeoutMS : c.timeoutMS = w.priv.timeoutMS
  pending : c.pending = w.pending

/-- A stop request. -/
theorem Shows.stopByUser (h : Shows w c) :
    ∃ c', c.deliver (π := π) .stopByUser = some c' ∧ Shows w.communityOpsStopByUser c' ∧
      c'.finish = c.finish ∧ c'.stopped = c.stopped := by
  refine ⟨_, rfl, ?_, ?_⟩
  · unfold communityOpsStopByUser
    by_cases hidle : w.dev.devStatus = devsCommIdle
    · rw [if_pos hidle, if_pos (by rw [h.idle, hidle]; rfl)]
      exact h
    · rw [if_neg hidle, if_neg (by rw [h.idle]; simpa using hidle)]
      exact ⟨h.idle, rfl, rfl, h.timeused, h.timeoutMS, h.pending⟩
  · split <;> exact ⟨rfl, rfl⟩

/-- The events while open or close is under way. -/
theorem Shows.deliver (h : Shows w c) {e : Event π} (he : w.deliver fp e = some w')
    (hpending : w.pending = some .deviceOpen ∨ w.pending = some .deviceClose ∨
      w.pending = none) : ∃ c', c.deliver e = some c' ∧ Shows w' c' := by
  have hne : w.pending ≠ some .deviceEnroll ∧ w.pending ≠ some .deviceCapture ∧
      w.pending ≠ some .deviceVerify ∧ w.pending ≠ some .deviceIdentify ∧
      w.pending ≠ some .deviceSearch := by
    rcases hpending with hp | hp | hp <;> simp [hp]
  -- libfprint is not asked for any of these operations
  obtain ⟨henroll, hcapture, hverify, hidentify, hsearch⟩ := hne
  cases e with
  | deviceOpened ok =>
    obtain rfl := Option.some.inj he
    refine ⟨_, rfl, ?_⟩
    -- an open is under way, or its completion is nobody's
    by_cases hp : w.pending = some .deviceOpen
    · rw [if_pos hp, if_pos (h.pending.trans hp)]
      cases ok
      · exact ⟨h.idle, h.asynFlag, h.ctrlFlag, h.timeused, h.timeoutMS, rfl⟩
      · exact ⟨h.idle, rfl, h.ctrlFlag, h.timeused, h.timeoutMS, rfl⟩
    · rw [if_neg hp, if_neg (by rwa [h.pending])]
      exact h
  | deviceClosed =>
    obtain rfl := Option.some.inj he
    refine ⟨_, rfl, ?_⟩
    -- the same for a close
    by_cases hp : w.pending = some .deviceClose
    · rw [if_pos hp, if_pos (h.pending.trans hp)]
      exact ⟨h.idle, rfl, h.ctrlFlag, h.timeused, h.timeoutMS, rfl⟩
    · rw [if_neg hp, if_neg (by rwa [h.pending])]
      exact h
  | stopByUser =>
    obtain rfl := Option.some.inj he
    obtain ⟨c', hc', hshows, -⟩ := h.stopByUser
    exact ⟨c', hc', hshows⟩
  | enrollProgress =>
    obtain rfl := Option.some.inj he
    refine ⟨_, rfl, ?_⟩
    rw [if_neg henroll, if_neg (by rwa [h.pending])]
    exact h
  | enrollCompleted result =>
    rw [World.deliver, if_neg henroll] at he
    obtain rfl := Option.some.inj he
    refine ⟨_, rfl, ?_⟩
    rw [if_neg (by rwa [h.pending])]
    exact h
  | captureCompleted | verifyCompleted | deviceIdentified | matchReport =>
    -- nobody waits for these
    refine ⟨c, rfl, ?_⟩
    simp only [World.deliver, hcapture, hverify, hidentify, hsearch, if_false, or_self] at he
    obtain rfl := Option.some.inj he
    exact h

variable (fp) in
/-- The driver has slept for one interval. -/
theorem Shows.tick (h : Shows w c) : Shows ((opPoller fp).tick w)
    { c with timeused := c.timeused + fingerCheckIntervalMs } := by
  refine ⟨h.idle, h.asynFlag, h.ctrlFlag, ?_, h.timeoutMS, h.pending⟩
  show c.timeused + fingerCheckIntervalMs = w.priv.timeused + fingerCheckIntervalMs
  rw [h.timeused]

variable (fp) in
/-- The driver takes note of a stop request. -/
theorem Shows.stop (h : Shows w c) (finish : Option EnrollFinish) (stopped : Option Bool) :
    Shows ((opPoller fp).stop w)
      { c with ctrlFlag := .stopped, idle := true, finish := finish, stopped := stopped } :=
  ⟨rfl, h.asynFlag, rfl, h.timeused, h.timeoutMS, h.pending⟩

/-- A loop that looks at a clock, and at nothing else. -/
structure LooksAt {τ : Type} (q : Poller τ (Event π)) (clock : τ → Clock) : Prop where
  isDone : ∀ t, q.isDone t = ((clock t).asynFlag == .done)
  timeUp : ∀ t, q.timeUp t = decide ((clock t).timeused > (clock t).timeoutMS)
  isStopping : ∀ t, q.isStopping t = ((clock t).ctrlFlag == .stoping)

/-- Where the clock shows the driver, such a loop makes the decisions of the driver's; what is left
to see is that events, sleeps and the stop go together. -/
theorem simulates_of_shows {τ : Type} {q : Poller τ (Event π)} (clock : τ → Clock)
    {R Q : World π → τ → Prop} (hq : LooksAt q clock)
    (hR : ∀ w t, R w t → Shows w (clock t)) (hQ : ∀ w t, Q w t → Shows w (clock t))
    (hdeliver : ∀ w t e w', R w t → w.deliver fp e = some w' →
      ∃ t', q.deliver t e = some t' ∧ R w' t')
    (hdeliver' : ∀ w t e w', Q w t → w.deliver fp e = some w' →
      ∃ t', q.deliver t e = some t' ∧ Q w' t')
    (htick : ∀ w t, R w t → R ((opPoller fp).tick w) (q.tick t))
    (hstop : ∀ w t, R w t → Q ((opPoller fp).stop w) (q.stop t)) :
    (opPoller fp).Simulates q R Q where
  -- a callback keeps the clock in step, and the flags are those of the clock
  follows := by
    refine ⟨hdeliver, fun w t h => ?_⟩
    rw [hq.isDone, (hR w t h).asynFlag]
    rfl
  -- after a stop as well
  follows_stopped := by
    refine ⟨hdeliver', fun w t h => ?_⟩
    rw [hq.isDone, (hQ w t h).asynFlag]
    rfl
  -- the time is that of the clock
  timeUp := by
    intro w t h
    rw [hq.timeUp, (hR w t h).timeused, (hR w t h).timeoutMS]
    rfl
  tick := htick
  isStopping := by
    intro w t h
    rw [hq.isStopping, (hR w t h).ctrlFlag]
    rfl
  stop := fun w t h _ => hstop w t h

/-- The same for a phase whose clock holds the stop. -/
theorem simulates_of_phase {q : Poller Clock (Event π)} {Phase : World π → Clock → Prop}
    (hq : LooksAt q id) (hshows : ∀ w c, Phase w c → Shows w c)
    (hdeliver : ∀ w c e w', Phase w c → w.deliver fp e = some w' →
      ∃ c', q.deliver c e = some c' ∧ Phase w' c' ∧ c'.stopped = c.stopped)
    (htick : ∀ w c, Phase w c →
      Phase ((opPoller fp).tick w) (q.tick c) ∧ (q.tick c).stopped = c.stopped)
    (hstop : ∀ w c, Phase w c → c.stopped = none →
      Phase ((opPoller fp).stop w) (q.stop c) ∧ (q.stop c).stopped ≠ none) :
    (opPoller fp).Simulates q (fun w c => Phase w c ∧ c.stopped = none)
      (fun w c => Phase w c ∧ c.stopped ≠ none) := by
  refine simulates_of_shows id hq (fun w c h => hshows w c h.1) (fun w c h => hshows w c h.1)
    ?deliver ?deliverStopped ?tick (fun w c h => hstop w c h.1 h.2)
  -- before the stop
  case deliver =>
    rintro w c e w' ⟨hphase, hnot⟩ he
    obtain ⟨c', hc', hphase', hkeeps⟩ := hdeliver w c e w' hphase he
    exact ⟨c', hc', hphase', hkeeps.trans hnot⟩
  -- after the stop
  case deliverStopped =>
    rintro w c e w' ⟨hphase, hstopped⟩ he
    obtain ⟨c', hc', hphase', hkeeps⟩ := hdeliver w c e w' hphase he
    exact ⟨c', hc', hphase', by rwa [hkeeps]⟩
  -- a sleep does not stop it
  case tick =>
    rintro w c ⟨hphase, hnot⟩
    obtain ⟨hphase', hkeeps⟩ := htick w c hphase
    exact ⟨hphase', hkeeps.trans hnot⟩

/-- The loop of open and close. -/
theorem simulates_openPoller (w₀ : World π) :
    (openPoller fp).Simulates Clock.openPoller (fun w c => Shows w c ∧ OpenCloseInv w₀ w)
      (fun _ _ => False) where
  follows := by
    refine ⟨?_, fun s t h => ?_⟩
    · rintro s t e s' ⟨hshows, hinv⟩ he
      obtain ⟨t', ht', hshows'⟩ := hshows.deliver he hinv.pending
      exact ⟨t', ht', hshows', hinv.deliver he⟩
    · change (t.asynFlag == .done) = (s.priv.asynFlag == .done)
      rw [h.1.asynFlag]
  follows_stopped := ⟨fun _ _ _ _ h => h.elim, fun _ _ h => h.elim⟩
  timeUp := by
    intro s t h
    change decide (t.timeused > t.timeoutMS) = decide (s.priv.timeused > s.priv.timeoutMS)
    rw [h.1.timeused, h.1.timeoutMS]
  tick := by
    rintro s t ⟨hshows, hinv⟩
    exact ⟨hshows.tick fp, hinv.config.trans ⟨rfl, rfl, rfl, rfl⟩, hinv.store, hinv.trace,
      hinv.opsResult, hinv.pending⟩
  isStopping := fun _ _ _ => rfl
  stop := fun _ _ _ hstopping => by cases hstopping

/-- Polling for open or close, on both sides. -/
theorem poll_openPoller_shows {exit : Exit}
    (hpoll : (openPoller fp).poll w es = .ret exit w' es') (h : Shows w c)
    (hpending : w.pending = some .deviceOpen ∨ w.pending = some .deviceClose) :
    ∃ c', Clock.openPoller.poll c es = .ret exit c' es' ∧ Shows w' c' ∧ OpenCloseInv w w' := by
  have hinit : OpenCloseInv w w :=
    ⟨.refl w, rfl, rfl, rfl, hpending.elim Or.inl fun hp => Or.inr (Or.inl hp)⟩
  obtain ⟨c', hc', hexit⟩ := Poller.poll_simulates (simulates_openPoller w) ⟨h, hinit⟩ hpoll
  rcases openPoller_exit fp hpoll with rfl | rfl
  · exact ⟨c', hc', hexit⟩
  · exact ⟨c', hc', hexit⟩

end Shows

/-! ### While the driver waits for the enroll -/

/-- The result while the enroll is waited for: open has left its success, the callback
sets its own, and a stop sets the one of the state it finds. -/
def Clock.opsResult (c : Clock) : ℤ :=
  if c.finish = some .print then
    if c.stopped = some true then opsCommStopByUser else opsEnrollSuccess
  else if c.stopped.isSome then opsTypeEnroll * 100 + opsCommStopByUser
  else opsOpenSuccess

section EnrollPhase

variable {π : Type} {fp : Libfprint π} {w w' w₀ : World π} {c c' : Clock}
  {es es' : List (List (Event π))}

/-- A print was to be written to the table of `w₀`, for `enrollData`. -/
def Stored (w₀ : World π) (enrollData : EnrollData) (store : Store) : Prop :=
  ∃ ret data, storeTemplate w₀.uuidOf w₀.priv.aesKey w₀.store w₀.dev enrollData.uid
    enrollData.idx enrollData.bioIdxName data = some (ret, store)

/-- The driver since the enroll was started in `w₀`, next to its clock. -/
structure EnrollPhase (w₀ w : World π) (c : Clock) : Prop where
  shows : Shows w c
  config : SameConfig w₀ w
  enrollData : w.enrollData = w₀.enrollData
  opsResult : w.dev.opsResult = c.opsResult
  devStatus : w.dev.devStatus =
    if c.finish = some .print ∨ c.stopped.isSome then devsCommIdle else devsEnrollDoing
  pending : w.pending = if c.finish = none then some .deviceEnroll else none
  /-- A stop that came too late came after the end. -/
  finished : c.stopped = some true → c.finish ≠ none
  store : if c.finish = some .print then Stored w₀ w₀.enrollData w.store else w.store = w₀.store

/-- Only what a device is decides what is written. -/
theorem storeTemplate_config (h : SameConfig w₀ w) (c : Store) (uid idx : ℤ) (idxName : String)
    (data : Bytes) :
    storeTemplate w.uuidOf w.priv.aesKey c w.dev uid idx idxName data =
      storeTemplate w₀.uuidOf w₀.priv.aesKey c w₀.dev uid idx idxName data := by
  unfold storeTemplate templateFeature
  rw [h.uuidOf, h.aesKey, h.biotype, h.deviceName]

/-- And where. -/
theorem enrollIndex_config (h : SameConfig w₀ w) (db : EigenInfo) (uid idx : ℤ) :
    enrollIndex w.uuidOf db w.dev uid idx = enrollIndex w₀.uuidOf db w₀.dev uid idx := by
  have hquery : w.dev.query = w₀.dev.query := by
    funext uid idxStart idxEnd
    simp only [BioDev.query, h.biotype, h.deviceName]
  unfold enrollIndex bioCommonGetEmptyIndexInt
  rw [h.uuidOf, hquery]

/-- The end of the enroll. -/
theorem EnrollPhase.enrollCompleted (h : EnrollPhase w₀ w c) (hfinish : c.finish = none)
    {result : EnrollResult} (he : w.deliver fp (.enrollCompleted result) = some w') :
    ∃ c', c.deliver (π := π) (.enrollCompleted result) = some c' ∧ EnrollPhase w₀ w' c' ∧
      c'.stopped = c.stopped := by
  -- libfprint is working on the enroll, and nothing has been stored
  have hpending : w.pending = some .deviceEnroll := by rw [h.pending, if_pos hfinish]
  have hstore : w.store = w₀.store := by
    have hs := h.store
    rwa [if_neg (by simp [hfinish])] at hs
  have hstopped : c.stopped ≠ some true := fun hs => h.finished hs hfinish
  have hshows := h.shows
  rw [World.deliver, if_pos hpending] at he
  refine ⟨_, rfl, ?_⟩
  rw [if_pos (hshows.pending.trans hpending)]
  cases result with
  | error =>
    -- the template is not complete: the flag is set, and the result is an error
    obtain rfl := Option.some.inj he
    refine ⟨⟨⟨hshows.idle, rfl, hshows.ctrlFlag, hshows.timeused, hshows.timeoutMS, rfl⟩,
      h.config.trans ⟨rfl, rfl, rfl, rfl⟩, h.enrollData, ?_, ?_, rfl,
      fun _ => Option.some_ne_none _, hstore⟩, rfl⟩
    · exact h.opsResult.trans (by simp [Clock.opsResult, hfinish, EnrollResult.finish])
    · exact h.devStatus.trans (by simp [hfinish, EnrollResult.finish])
  | serializeError =>
    -- the callback returns early: the flag is as it was
    obtain rfl := Option.some.inj he
    refine ⟨⟨⟨hshows.idle, hshows.asynFlag, hshows.ctrlFlag, hshows.timeused, hshows.timeoutMS,
      rfl⟩, h.config.trans ⟨rfl, rfl, rfl, rfl⟩, h.enrollData, ?_, ?_, rfl,
      fun _ => Option.some_ne_none _, hstore⟩, rfl⟩
    · exact h.opsResult.trans (by simp [Clock.opsResult, hfinish, EnrollResult.finish])
    · exact h.devStatus.trans (by simp [hfinish, EnrollResult.finish])
  | print data =>
    -- the print is stored, with the index and the name of the request
    obtain ⟨⟨ret, store⟩, hwrite, rfl⟩ := Option.map_eq_some_iff.mp he
    refine ⟨⟨⟨rfl, rfl, hshows.ctrlFlag, hshows.timeused, hshows.timeoutMS, rfl⟩,
      h.config.trans ⟨rfl, rfl, rfl, rfl⟩, h.enrollData, ?_, rfl, rfl,
      fun _ => Option.some_ne_none _, ret, data, ?_⟩, rfl⟩
    · exact ((if_pos rfl).trans (if_neg hstopped)).symm
    · change storeTemplate w.uuidOf w.priv.aesKey w.store w.dev w.enrollData.uid w.enrollData.idx
        w.enrollData.bioIdxName data = some (ret, store) at hwrite
      rwa [storeTemplate_config h.config, h.enrollData, hstore] at hwrite

/-- Every event. -/
theorem EnrollPhase.deliver (h : EnrollPhase w₀ w c) {e : Event π}
    (he : w.deliver fp e = some w') :
    ∃ c', c.deliver e = some c' ∧ EnrollPhase w₀ w' c' ∧ c'.stopped = c.stopped := by
  have hpending := h.pending
  have hne : w.pending ≠ some .deviceOpen ∧ w.pending ≠ some .deviceClose ∧
      w.pending ≠ some .deviceCapture ∧ w.pending ≠ some .deviceVerify ∧
      w.pending ≠ some .deviceIdentify ∧ w.pending ≠ some .deviceSearch := by
    rw [hpending]
    split <;> simp
  -- only the events of an enroll can do anything
  obtain ⟨hopen, hclose, hcapture, hverify, hidentify, hsearch⟩ := hne
  cases e with
  | enrollCompleted result =>
    by_cases hfinish : c.finish = none
    · exact h.enrollCompleted hfinish he
    · -- libfprint is done with it already
      rw [if_neg hfinish] at hpending
      rw [World.deliver, if_neg (by simp [hpending])] at he
      obtain rfl := Option.some.inj he
      refine ⟨_, rfl, ?_⟩
      rw [if_neg (by simp [h.shows.pending, hpending])]
      exact ⟨h, rfl⟩
  | enrollProgress =>
    obtain rfl := Option.some.inj he
    refine ⟨_, rfl, ?_⟩
    -- progress starts the waiting time anew
    by_cases hp : w.pending = some .deviceEnroll
    · rw [if_pos hp, if_pos (h.shows.pending.trans hp)]
      exact ⟨⟨⟨h.shows.idle, h.shows.asynFlag, h.shows.ctrlFlag, rfl, h.shows.timeoutMS,
        h.shows.pending⟩, h.config.trans ⟨rfl, rfl, rfl, rfl⟩, h.enrollData, h.opsResult,
        h.devStatus, h.pending, h.finished, h.store⟩, rfl⟩
    · rw [if_neg hp, if_neg (by rwa [h.shows.pending])]
      exact ⟨h, rfl⟩
  | stopByUser =>
    -- a stop keeps what has been stored, and libfprint goes on or is done
    obtain rfl := Option.some.inj he
    obtain ⟨c', hc', hshows, hfinish, hstopped⟩ := h.shows.stopByUser
    have hframe := communityOpsStopByUser_frame w
    refine ⟨c', hc', ⟨hshows, h.config.trans hframe.config, ?_, ?_, ?_, ?_, ?_, ?_⟩, hstopped⟩
    · rw [communityOpsStopByUser_enrollData, h.enrollData]
    · rw [communityOpsStopByUser_opsResult, h.opsResult, Clock.opsResult, Clock.opsResult, hfinish,
        hstopped]
    · rw [communityOpsStopByUser_devStatus, hfinish, hstopped, h.devStatus]
    · rw [communityOpsStopByUser_pending, hfinish, h.pending]
    · rw [hfinish, hstopped]
      exact h.finished
    · rw [hfinish, communityOpsStopByUser_store]
      exact h.store
  | deviceOpened ok =>
    -- nobody waits for this callback, nor for the ones below
    refine ⟨c, congrArg some (if_neg (by rwa [h.shows.pending])), ?_⟩
    rw [World.deliver, if_neg hopen] at he
    obtain rfl := Option.some.inj he
    exact ⟨h, rfl⟩
  | deviceClosed =>
    refine ⟨c, congrArg some (if_neg (by rwa [h.shows.pending])), ?_⟩
    rw [World.deliver, if_neg hclose] at he
    obtain rfl := Option.some.inj he
    exact ⟨h, rfl⟩
  | captureCompleted | verifyCompleted | deviceIdentified | matchReport =>
    refine ⟨c, rfl, ?_⟩
    simp only [World.deliver, hcapture, hverify, hidentify, hsearch, if_false, or_self] at he
    obtain rfl := Option.some.inj he
    exact ⟨h, rfl⟩

/-- The loop of enroll. -/
theorem simulates_opPoller (w₀ : World π) :
    (opPoller fp).Simulates Clock.opPoller (fun w c => EnrollPhase w₀ w c ∧ c.stopped = none)
      (fun w c => EnrollPhase w₀ w c ∧ c.stopped ≠ none) := by
  refine simulates_of_phase ⟨fun _ => rfl, fun _ => rfl, fun _ => rfl⟩ (fun _ _ h => h.shows)
    (fun _ _ _ _ h he => h.deliver he) (fun w c h => ⟨?_, rfl⟩) (fun w c h hnot => ⟨?_, nofun⟩)
  · exact ⟨h.shows.tick fp, h.config.trans ⟨rfl, rfl, rfl, rfl⟩, h.enrollData, h.opsResult,
      h.devStatus, h.pending, h.finished, h.store⟩
  · refine ⟨h.shows.stop fp _ _, h.config.trans ⟨rfl, rfl, rfl, rfl⟩, h.enrollData, ?_, ?_,
      h.pending, ?_, h.store⟩
    · -- the result of the stop is that of the status it finds
      show w.dev.devStatus.tdiv 100 * 100 + 3 =
        Clock.opsResult { c with stopped := some c.finish.isSome, .. }
      rw [h.devStatus, hnot]
      rcases hfinish : c.finish with _ | _ | _ | _ <;> simp [Clock.opsResult]
    · show devsCommIdle = _
      exact (if_pos (Or.inr rfl)).symm
    · show some c.finish.isSome = some true → c.finish ≠ none
      intro hsome
      exact Option.isSome_iff_ne_none.mp (Option.some.inj hsome)

/-- The loop, on both sides. -/
theorem poll_opPoller_phase {exit : Exit} (hpoll : (opPoller fp).poll w es = .ret exit w' es')
    (h : EnrollPhase w₀ w c) (hstopped : c.stopped = none) :
    ∃ c', Clock.opPoller.poll c es = .ret exit c' es' ∧ EnrollPhase w₀ w' c' ∧
      (exit = .stopped ↔ c'.stopped.isSome = true) := by
  obtain ⟨c', hc', hexit⟩ := Poller.poll_simulates (simulates_opPoller w₀) ⟨h, hstopped⟩ hpoll
  refine ⟨c', hc', ?_⟩
  cases exit with
  | stopped => exact ⟨hexit.1, iff_of_true rfl (Option.isSome_iff_ne_none.mpr hexit.2)⟩
  | done => exact ⟨hexit.1, iff_of_false (by decide) (by simp [hexit.2])⟩
  | timeout => exact ⟨hexit.1, iff_of_false (by decide) (by simp [hexit.2])⟩

/-- `community_ops_enroll` on an opened device. -/
theorem communityOpsEnroll_course {uid idx r : ℤ} {bioIdxName : String} (hshows : Shows w c)
    (henable : w.dev.enable = true) (hopened : w.dev.opsResult = opsOpenSuccess)
    (h : communityOpsEnroll fp uid idx bioIdxName w es = .ret r w' es') :
    ∃ idx' exit c', enrollIndex w.uuidOf w.store.db w.dev uid idx = some idx' ∧
      Clock.opPoller.poll c.startEnroll es = .ret exit c' es' ∧
      Shows w' { c' with idle := c'.idle || exit == .timeout } ∧ SameConfig w w' ∧
      (exit = .stopped ↔ c'.stopped.isSome = true) ∧
      w'.dev.opsResult = (if exit = .timeout then opsEnrollTimeout else c'.opsResult) ∧
      if c'.finish = some .print then Stored w ⟨uid, idx', bioIdxName⟩ w'.store
      else w'.store = w.store := by
  -- an enabled device: an index is chosen, libfprint is asked, and the loop waits
  simp only [communityOpsEnroll, Proc.get_bind, henable, Bool.true_eq_false, if_false,
    Proc.modify_bind, Proc.bind_eq_ret, Proc.ofOption_eq_ret] at h
  obtain ⟨idx', w, es, ⟨hidx, rfl, rfl⟩, exit, w₂, es₂, hawait, h⟩ := h
  obtain ⟨w₁, hpoll, rfl⟩ := awaitCompletion_eq_ret.mp hawait
  obtain ⟨c', hc', hphase, hstopped⟩ := poll_opPoller_phase (c := c.startEnroll) hpoll
    ⟨⟨rfl, rfl, hshows.ctrlFlag, rfl, hshows.timeoutMS, rfl⟩, .refl _, rfl, hopened, rfl, rfl,
      nofun, rfl⟩ rfl
  have hstore := hphase.store
  -- only a timeout changes the device behind the loop
  have hends : es₂ = es' ∧
      w' = if exit = .timeout then w₁.setIdle opsEnrollTimeout notifyEnrollTimeout else w₁ := by
    cases exit <;> cases h <;> exact ⟨rfl, rfl⟩
  obtain ⟨rfl, rfl⟩ := hends
  -- what the loop has shown, before and after a timeout
  refine ⟨idx', exit, c', hidx, hc', ?_, ?_, hstopped, ?_, ?_⟩
  · have hshows' := hphase.shows
    cases exit with
    | timeout =>
      exact ⟨by simp [World.setIdle, BioDev.setDevStatus], hshows'.asynFlag, hshows'.ctrlFlag,
        hshows'.timeused, hshows'.timeoutMS, hshows'.pending⟩
    | done | stopped =>
      exact ⟨by simp [hshows'.idle], hshows'.asynFlag, hshows'.ctrlFlag, hshows'.timeused,
        hshows'.timeoutMS, hshows'.pending⟩
  · -- neither the loop nor the timeout touches the configuration
    have hconfig : SameConfig w w₁ := by
      refine SameConfig.trans ?_ hphase.config
      exact ⟨rfl, rfl, rfl, rfl⟩
    split
    · exact hconfig.trans ⟨rfl, rfl, rfl, rfl⟩
    · exact hconfig
  · split
    · rfl
    · exact hphase.opsResult
  · -- the store is what the callback has left
    have hkept : (if exit = .timeout then w₁.setIdle opsEnrollTimeout notifyEnrollTimeout
        else w₁).store = w₁.store := by
      split <;> rfl
    rw [hkept]
    exact hstore

end EnrollPhase

/-! ### The whole request -/

namespace EnrollCourse

/-- The callback has written the print. -/
def Prints : EnrollCourse → Prop
  | .notOpened => False
  | .opened finish _ _ _ => finish = some .print

/-- The result the device is left with is a success. -/
def Succeeds : EnrollCourse → Prop
  | .notOpened => False
  | .opened finish exit stopped closed =>
    closed = true ∧ exit ≠ .timeout ∧
      if finish = some .print then stopped ≠ some true else stopped = none

/-- A stop is taken note of by the exit it leads to. -/
def Stops : EnrollCourse → Prop
  | .notOpened => True
  | .opened _ exit stopped _ => exit = .stopped ↔ stopped.isSome = true

/-- A course is honest if its result is a success exactly when a row was inserted. -/
theorem honest_iff {course : EnrollCourse} (hstops : course.Stops) (inserts : Bool) :
    course.Honest inserts ↔ (course.Succeeds ↔ course.Prints ∧ inserts = true) := by
  cases course with
  | notOpened => simp [Honest, Succeeds, Prints]
  | opened finish exit stopped closed =>
    simp only [Stops] at hstops
    by_cases hfinish : finish = some .print
    · cases exit <;> cases closed <;> cases inserts <;> rcases stopped with _ | _ | _ <;>
        simp_all [Honest, Succeeds, Prints]
    · cases exit <;> cases closed <;> rcases stopped with _ | _ <;>
        simp_all [Honest, Succeeds, Prints]

/-- The result after close, in terms of the course. -/
theorem succeeds_iff (c : Clock) (exit closed : Exit) :
    (if closed = .done then (if exit = .timeout then opsEnrollTimeout else c.opsResult)
      else opsCloseFail).tmod 100 = opsCommSuccess ↔
      (opened c.finish exit c.stopped (closed == .done)).Succeeds := by
  cases closed with
  | done =>
    by_cases htimeout : exit = .timeout
    · simp [Succeeds, htimeout]
    · by_cases hfinish : c.finish = some .print
      · by_cases hstopped : c.stopped = some true <;>
          simp [Succeeds, Clock.opsResult, htimeout, hfinish, hstopped]
      · cases hstopped : c.stopped <;>
          simp [Succeeds, Clock.opsResult, htimeout, hfinish, hstopped]
  | timeout | stopped => simp [Succeeds]

end EnrollCourse

section EnrollRequest

variable {π : Type} {fp : Libfprint π} {w w' : World π} {c c' : Clock}
  {es es' : List (List (Event π))}

/-- Open, on both sides. -/
theorem communityOpsOpen_course {r : ℤ} (henable : w.dev.enable = true)
    (h : communityOpsOpen fp w es = .ret r w' es') :
    ∃ exit c', Clock.openPoller.poll w.clock.startOpen es = .ret exit c' es' ∧
      Shows w' { c' with idle := true } ∧ (exit = .done ↔ r = 0) := by
  obtain ⟨exit, w₁, hpoll, hexit⟩ := (communityOpsOpen_eq_ret fp henable).mp h
  obtain ⟨c', hc', hshows, -⟩ := poll_openPoller_shows (c := w.clock.startOpen) hpoll
    ⟨rfl, rfl, rfl, rfl, rfl, rfl⟩ (Or.inl rfl)
  refine ⟨exit, c', hc', ?_⟩
  rcases hexit with ⟨rfl, rfl, rfl⟩ | ⟨rfl, rfl, rfl⟩
  · exact ⟨⟨rfl, hshows.asynFlag, hshows.ctrlFlag, hshows.timeused, hshows.timeoutMS,
      hshows.pending⟩, by decide⟩
  · exact ⟨⟨rfl, hshows.asynFlag, hshows.ctrlFlag, hshows.timeused, hshows.timeoutMS,
      hshows.pending⟩, by decide⟩

/-- Close, on both sides. -/
theorem communityOpsClose_course (henable : w.dev.enable = true) (hshows : Shows w c)
    (h : communityOpsClose fp w es = .ret () w' es') :
    ∃ exit c', Clock.openPoller.poll c.startClose es = .ret exit c' es' ∧ w'.store = w.store ∧
      w'.dev.opsResult = if exit = .done then w.dev.opsResult else opsCloseFail := by
  obtain ⟨exit, w₁, hpoll, hexit⟩ := (communityOpsClose_eq_ret fp henable).mp h
  obtain ⟨c', hc', -, hinv⟩ := poll_openPoller_shows (c := c.startClose) hpoll
    ⟨hshows.idle, rfl, hshows.ctrlFlag, hshows.timeused, hshows.timeoutMS, rfl⟩ (Or.inr rfl)
  refine ⟨exit, c', hc', ?_⟩
  rcases hexit with ⟨rfl, rfl⟩ | ⟨rfl, rfl⟩
  · exact ⟨hinv.store, hinv.opsResult⟩
  · exact ⟨hinv.store, rfl⟩

/-- What a `bio_ops_enroll` ends with, by its course. -/
theorem bioOpsEnroll_course {uid idx r : ℤ} {idxName : String} (henable : w.dev.enable = true)
    (h : bioOpsEnroll fp uid idx idxName w es = .ret r w' es') :
    ∃ course c', enrollCourse w.clock es = .ret course c' es' ∧ course.Stops ∧
      (w'.dev.opsResult.tmod 100 = opsCommSuccess ↔ course.Succeeds) ∧
      (course.Prints → ∃ idx', enrollIndex w.uuidOf w.store.db w.dev uid idx = some idx' ∧
        Stored w ⟨uid, idx', idxName⟩ w'.store) ∧
      (¬ course.Prints → w'.store = w.store) := by
  -- open, enroll if open has succeeded, and close
  obtain ⟨r₁, w₁, es₁, w₂, es₂, hopen, hop, hclose⟩ := (bioOps_eq_ret henable).mp h
  obtain ⟨hconfig, hstore, -, hresult⟩ := communityOpsOpen_spec henable hopen
  obtain ⟨opened, c₁, hc₁, hshows₁, hopened⟩ := communityOpsOpen_course henable hopen
  have henable₁ := hconfig.enable.trans henable
  by_cases hr : r₁ = 0
  · -- the device is open, and its last result is that of the open
    rw [if_pos hr] at hop
    obtain rfl := hopened.mpr hr
    have hresult₁ : w₁.dev.opsResult = opsOpenSuccess := by
      rcases hresult with ⟨-, hresult⟩ | ⟨hr', -⟩
      · exact hresult
      · exact absurd (hr'.symm.trans hr) (by decide)
    obtain ⟨idx', exit, c₂, hidx, hc₂, hshows₂, hconfig₂, hstops, hresult₂, hstored⟩ :=
      communityOpsEnroll_course hshows₁ henable₁ hresult₁ hop
    obtain ⟨closed, c₃, hc₃, hstore₃, hresult₃⟩ :=
      communityOpsClose_course (hconfig₂.enable.trans henable₁) hshows₂ hclose
    -- the course: how the enroll has ended, how its loop was left, and whether close has been heard
    refine ⟨.opened c₂.finish exit c₂.stopped (closed == .done), c₃, ?_, hstops, ?_, ?_, ?_⟩
    · simp only [enrollCourse, Proc.modify_bind]
      refine Proc.bind_eq_ret.mpr ⟨.done, c₁, es₁, hc₁, ?_⟩
      rw [if_pos rfl]
      simp only [Proc.modify_bind]
      refine Proc.bind_eq_ret.mpr ⟨exit, c₂, es₂, hc₂, ?_⟩
      simp only [Proc.modify_bind, Proc.get_bind]
      exact Proc.bind_eq_ret.mpr ⟨closed, c₃, es', hc₃, rfl⟩
    · -- the result of the close decides, or that of the enroll
      rw [hresult₃, hresult₂]
      exact EnrollCourse.succeeds_iff c₂ exit closed
    · -- the print is in the table that was there before the open
      intro hprints
      rw [if_pos (show c₂.finish = some .print from hprints)] at hstored
      obtain ⟨ret, data, hwrite⟩ := hstored
      rw [enrollIndex_config hconfig, hstore] at hidx
      rw [storeTemplate_config hconfig, hstore, ← hstore₃] at hwrite
      exact ⟨idx', hidx, ret, data, hwrite⟩
    · -- nothing has been stored
      intro hprints
      rw [if_neg (show ¬ c₂.finish = some .print from hprints)] at hstored
      rw [hstore₃, hstored, hstore]
  · -- open has failed: close is all that follows, and the result is no success
    rw [if_neg hr] at hop
    obtain ⟨-, rfl, rfl⟩ := hop
    have hopened' : opened ≠ .done := fun hdone => hr (hopened.mp hdone)
    obtain ⟨closed, c₃, hc₃, hstore₃, hresult₃⟩ :=
      communityOpsClose_course henable₁ hshows₁ hclose
    refine ⟨.notOpened, c₃, ?_, trivial, ?_, False.elim, fun _ => hstore₃.trans hstore⟩
    · simp only [enrollCourse, Proc.modify_bind]
      refine Proc.bind_eq_ret.mpr ⟨opened, c₁, es₂, hc₁, ?_⟩
      rw [if_neg hopened']
      simp only [Proc.modify_bind]
      exact Proc.bind_eq_ret.mpr ⟨closed, c₃, es', hc₃, rfl⟩
    · have hresult₁ : w₂.dev.opsResult = opsOpenFail := by
        rcases hresult with ⟨hr', -⟩ | ⟨-, hresult⟩
        · exact absurd hr' hr
        · exact hresult
      rw [hresult₃, hresult₁]
      cases closed <;> simp [EnrollCourse.Succeeds]

/-- An enroll leaves the configuration alone. -/
theorem bioOpsEnroll_config {uid idx r : ℤ} {idxName : String} (henable : w.dev.enable = true)
    (h : bioOpsEnroll fp uid idx idxName w es = .ret r w' es') : SameConfig w w' := by
  obtain ⟨r₁, w₁, es₁, w₂, es₂, hopen, hop, hclose⟩ := (bioOps_eq_ret henable).mp h
  obtain ⟨hconfig, -, -, hresult⟩ := communityOpsOpen_spec henable hopen
  obtain ⟨opened, c₁, -, hshows₁, -⟩ := communityOpsOpen_course henable hopen
  have henable₁ := hconfig.enable.trans henable
  have hconfig₂ : SameConfig w w₂ := by
    by_cases hr : r₁ = 0
    · rw [if_pos hr] at hop
      have hresult₁ : w₁.dev.opsResult = opsOpenSuccess := by
        rcases hresult with ⟨-, hresult⟩ | ⟨hr', -⟩
        · exact hresult
        · exact absurd (hr'.symm.trans hr) (by decide)
      obtain ⟨idx', exit, c₂, -, -, -, hconfig₂, -⟩ :=
        communityOpsEnroll_course hshows₁ henable₁ hresult₁ hop
      exact hconfig.trans hconfig₂
    · rw [if_neg hr] at hop
      rw [hop.2.1]
      exact hconfig
  exact hconfig₂.trans (communityOpsClose_spec (hconfig₂.enable.trans henable) hclose).1

end EnrollRequest

end BiometricAuth
