import BiometricAuth.Driver.Budget
import BiometricAuth.Driver.Enroll
import BiometricAuth.Lib.Machine

/-!
# Idle again

Every exit of an operation restores `DEVS_COMM_IDLE` on its own, and three do not: an enroll
that libfprint ends with an error, a capture that it ends without an image, and a verify of a
template that cannot be deserialized. Close does not restore it either, unless it times out.

The exits are told apart by the clock of the driver: `enrollExit` and `captureExit` say whether
the operation comes to such an exit, `busyCourse` puts an open and a close around it.

Main result: `along_idleAfter_iff` — after every call of a run the device is idle, and a stop
request does nothing, exactly if no call of the run takes such a course.
-/

namespace BiometricAuth

open Process World

/-! ### The calls -/

/-- A call of the framework. -/
inductive BioOps
  | enroll (uid idx : ℤ) (idxName : String)
  | verify (uid idx : ℤ)
  | identify (uid idxStart idxEnd : ℤ)
  | search (uid idxStart idxEnd : ℤ)
  | clean (uid idxStart idxEnd : ℤ)
  | capture
  | getFeatureList (uid idxStart idxEnd : ℤ)
  | featureRename (uid idx : ℤ) (newName : String)

section Calls

variable {π : Type} (fp : Libfprint π)

/-- The function that is called. -/
def BioOps.run : BioOps → Driver π Unit
  | .enroll uid idx idxName => discard (bioOpsEnroll fp uid idx idxName)
  | .verify uid idx => discard (bioOpsVerify fp uid idx)
  | .identify uid idxStart idxEnd => discard (bioOpsIdentify fp uid idxStart idxEnd)
  | .search uid idxStart idxEnd => discard (bioOpsSearch fp uid idxStart idxEnd)
  | .clean uid idxStart idxEnd => discard (bioOpsClean fp uid idxStart idxEnd)
  | .capture => discard (bioOpsCapture fp)
  | .getFeatureList uid idxStart idxEnd => discard (bioOpsGetFeatureList fp uid idxStart idxEnd)
  | .featureRename uid idx newName => discard (bioOpsFeatureRename uid idx newName)

/-- A call that returns, with the schedule it runs by. -/
def bioOpsStep (w : World π) (call : BioOps × List (List (Event π))) : Option (World π) :=
  match call.1.run fp w call.2 with
  | .ret _ w' _ => some w'
  | _ => none

/-- The device is idle, and a stop request finds it so. -/
structure IdleWorld (w : World π) : Prop where
  devStatus : w.dev.devStatus = devsCommIdle
  stop : w.communityOpsStopByUser = w

/-- After the call the device is idle. -/
def IdleAfter (w : World π) (call : BioOps × List (List (Event π))) : Prop :=
  ∀ w', bioOpsStep fp w call = some w' → IdleWorld w'

end Calls

/-! ### The exits that leave the device busy -/

namespace Clock

variable {π : Type}

/-- What an event does while libfprint captures. -/
def deliverCapture (c : Clock) : Event π → Option Clock
  | .captureCompleted image =>
    some (if c.pending = some .deviceCapture then
      { c with
        pending := none, asynFlag := .done,
        finish := some (if image.isSome then .print else .error) }
      else c)
  | .stopByUser => c.deliver (π := π) .stopByUser
  | _ => some c

/-- The loop of capture. -/
def capturePoller : Poller Clock (Event π) :=
  { (opPoller : Poller Clock (Event π)) with deliver := deliverCapture }

/-- Capture is under way. -/
def startCapture (c : Clock) : Clock :=
  { c with
    idle := false, asynFlag := .running, timeused := 0, pending := some .deviceCapture,
    finish := none, stopped := none }

/-- Enroll is left by `exit`. -/
def leaveEnroll (c : Clock) (exit : Exit) : Clock :=
  { c with idle := c.idle || exit == .timeout }

/-- Capture is left by `exit`; the status is restored if there is an image, or on a timeout. -/
def leaveCapture (c : Clock) (exit : Exit) : Clock :=
  { c with idle := c.idle || exit == .timeout || exit == .done && c.finish == some .print }

end Clock

section Courses

variable {π : Type}

/-- Whether an enroll ends without a print, in time. -/
def enrollExit : Proc Clock (Event π) Bool := do
  Proc.modify Clock.startEnroll
  let exit ← Clock.opPoller.poll
  Proc.modify fun c => c.leaveEnroll exit
  let c ← Proc.get
  return exit == .done && c.finish != some .print

/-- Whether a capture ends without an image, in time. -/
def captureExit : Proc Clock (Event π) Bool := do
  Proc.modify Clock.startCapture
  let exit ← Clock.capturePoller.poll
  Proc.modify fun c => c.leaveCapture exit
  let c ← Proc.get
  return exit == .done && c.finish != some .print

/-- A verify that gives up before it calls libfprint. -/
def verifyExit : Proc Clock (Event π) Bool := do
  Proc.modify fun c => { c with idle := false, asynFlag := .running, timeused := 0 }
  return true

/-- Whether a call leaves the device busy: it can be opened, the operation leaves by such an
exit, and close is answered in time. -/
def busyCourse (exit : Proc Clock (Event π) Bool) : Proc Clock (Event π) Bool := do
  Proc.modify Clock.startOpen
  let opened ← Clock.openPoller.poll
  Proc.modify fun c => { c with idle := true }
  if opened = .done then
    let busy ← exit
    Proc.modify Clock.startClose
    let closed ← Clock.openPoller.poll
    return busy && closed == .done
  else
    return false

/-- The clock comes to such a course. -/
def TakesBusyCourse (exit : Proc Clock (Event π) Bool) (w : World π)
    (es : List (List (Event π))) : Prop :=
  ∃ c es', busyCourse exit w.clock es = .ret true c es'

variable (fp : Libfprint π)

/-- The template of a verify cannot be deserialized. -/
def Undecodable (w : World π) (uid idx : ℤ) : Prop :=
  ∃ data, verifyTemplate w uid idx = some data ∧ fp.deserialize data = none

/-- The call leaves the device busy. -/
def LeavesBusy (w : World π) : BioOps × List (List (Event π)) → Prop
  | (.enroll .., es) => TakesBusyCourse enrollExit w es
  | (.capture, es) => TakesBusyCourse captureExit w es
  | (.verify uid idx, es) => Undecodable fp w uid idx ∧ TakesBusyCourse verifyExit w es
  | _ => False

end Courses

/-! ### Exits that restore the status -/

section Idle

variable {π : Type} {fp : Libfprint π} {w w' : World π} {es es' : List (List (Event π))}

/-- The device is enabled. -/
def Enabled (w : World π) : Prop := w.dev.enable = true

/-- The device is enabled and idle. -/
structure EnabledIdle (w : World π) : Prop where
  enable : w.dev.enable = true
  devStatus : w.dev.devStatus = devsCommIdle

/-- What holds when the loop of an operation is left: only the end of the operation does not
restore the status. -/
def LeftBy (exit : Exit) (w : World π) : Prop :=
  w.dev.enable = true ∧ (exit ≠ .done → w.dev.devStatus = devsCommIdle)

theorem LeftBy.enabledIdle {exit : Exit} (h : LeftBy exit w) (hexit : exit ≠ .done) :
    EnabledIdle w :=
  ⟨h.1, h.2 hexit⟩

theorem Enabled.deliver (h : Enabled w) {e : Event π} (he : w.deliver fp e = some w') :
    Enabled w' :=
  (deliver_frame he).config.enable.trans h

/-- Only the callback of an enroll sets the status, and it sets it to idle. -/
theorem deliver_devStatus {e : Event π} (he : w.deliver fp e = some w') :
    w'.dev.devStatus = w.dev.devStatus ∨
      w.pending = some .deviceEnroll ∧ w'.dev.devStatus = devsCommIdle := by
  cases deliver_inv he with
  | stopByUser => exact .inl (communityOpsStopByUser_devStatus w)
  | deviceOpened ok => cases ok <;> exact .inl rfl
  | captureCompleted image => cases image <;> exact .inl rfl
  | enrollPrint data hpending => exact .inr ⟨hpending, rfl⟩
  | verifyReport report => cases report <;> exact .inl rfl
  | identifyReport _ hreport =>
    obtain ⟨uid, dev, rfl, rfl | ⟨result, mid, rfl⟩⟩ := exists_of_onMatchCbIdentify hreport <;>
      exact .inl rfl
  | searchReport _ hreport =>
    obtain ⟨data, dev, ctrlFlag, rfl, rfl | rfl, -⟩ := exists_of_onMatchCbSearch hreport <;>
      exact .inl rfl
  | ignored | deviceClosed | enrollProgress | enrollError | serializeError | verifyCompleted
    | deviceIdentified => exact .inl rfl

theorem EnabledIdle.deliver (h : EnabledIdle w) {e : Event π} (he : w.deliver fp e = some w') :
    EnabledIdle w' := by
  refine ⟨Enabled.deliver h.enable he, ?_⟩
  rcases deliver_devStatus he with hstatus | ⟨-, hstatus⟩
  · exact hstatus.trans h.devStatus
  · exact hstatus

/-- The loop of an operation: only where it ends with the operation, its status is left. -/
theorem awaitCompletion_returns {result mid : ℤ} :
    Proc.Returns Enabled (awaitCompletion (opPoller fp) result mid) LeftBy := by
  intro w es exit w' es' hw hret
  obtain ⟨w₁, hpoll, rfl⟩ := awaitCompletion_eq_ret.mp hret
  have hexit := Poller.poll_invariant (P := Enabled) (Q := EnabledIdle)
    (fun _ _ _ hs he => Enabled.deliver hs he) (fun _ hs _ => hs)
    (fun w hs _ => ⟨show w.dev.enable = true from hs, rfl⟩) (fun _ _ _ hs he => hs.deliver he) hw
    hpoll
  cases exit with
  | done => exact ⟨hexit.1, fun hne => absurd rfl hne⟩
  | timeout => exact ⟨hexit.1, fun _ => rfl⟩
  | stopped => exact ⟨hexit.1.1, fun _ => hexit.1.2⟩

/-- What events and ticks keep holds when open or close has been waited for. -/
theorem poll_openPoller_keeps {P : World π → Prop} {exit : Exit}
    (hpoll : (openPoller fp).poll w es = .ret exit w' es')
    (hP : ∀ w e w', P w → w.deliver fp e = some w' → P w')
    (htick : ∀ w, P w → P ((openPoller fp).tick w)) (hw : P w) : P w' := by
  have hexit := Poller.poll_invariant (P := P) (Q := fun _ => False) hP
    (fun _ hs _ => htick _ hs) (fun _ _ hstopping => by simp [openPoller] at hstopping)
    (fun _ _ _ hs _ => hs) hw hpoll
  rcases openPoller_exit fp hpoll with rfl | rfl <;> exact hexit.1

theorem communityOpsOpen_returns :
    Proc.Returns Enabled (communityOpsOpen fp) fun _ => EnabledIdle := by
  intro w es r w' es' hw hret
  obtain ⟨exit, w₁, hpoll, hexit⟩ := (communityOpsOpen_eq_ret fp hw).mp hret
  have hw₁ := poll_openPoller_keeps (P := Enabled) hpoll (fun _ _ _ hs he => hs.deliver he)
    (fun _ hs => hs) hw
  rcases hexit with ⟨-, -, rfl⟩ | ⟨-, -, rfl⟩ <;> exact ⟨hw₁, rfl⟩

/-- Close keeps the device enabled, and idle if it is. -/
theorem communityOpsClose_returns :
    Proc.Returns Enabled (communityOpsClose fp) (fun _ => Enabled) ∧
      Proc.Returns EnabledIdle (communityOpsClose fp) fun _ => EnabledIdle := by
  constructor
  · intro w es r w' es' hw hret
    obtain ⟨exit, w₁, hpoll, hexit⟩ := (communityOpsClose_eq_ret fp hw).mp hret
    have hw₁ := poll_openPoller_keeps (P := Enabled) hpoll (fun _ _ _ hs he => hs.deliver he)
      (fun _ hs => hs) hw
    rcases hexit with ⟨-, rfl⟩ | ⟨-, rfl⟩ <;> exact hw₁
  · intro w es r w' es' hw hret
    obtain ⟨exit, w₁, hpoll, hexit⟩ := (communityOpsClose_eq_ret fp hw.enable).mp hret
    have hw₁ := poll_openPoller_keeps (P := EnabledIdle) hpoll (fun _ _ _ hs he => hs.deliver he)
      (fun _ hs => ⟨hs.1, hs.2⟩) ⟨hw.1, hw.2⟩
    rcases hexit with ⟨-, rfl⟩ | ⟨-, rfl⟩
    · exact ⟨hw₁.1, hw₁.2⟩
    · exact ⟨hw₁.1, rfl⟩

/-- An operation that leaves the device idle, between an open and a close. -/
theorem bioOps_returns {α : Type} {failed : α} {op : Driver π α}
    (hop : Proc.Returns EnabledIdle op fun _ => EnabledIdle) :
    Proc.Returns Enabled (bioOps fp failed op) fun _ => EnabledIdle := by
  intro w es a w' es' hw hret
  obtain ⟨r, w₁, es₁, w₂, es₂, hopen, hmid, hclose⟩ := (bioOps_eq_ret hw).mp hret
  have hw₁ := communityOpsOpen_returns _ _ _ _ _ hw hopen
  have hw₂ : EnabledIdle w₂ := by
    split at hmid
    · exact hop _ _ _ _ _ hw₁ hmid
    · obtain ⟨-, rfl, -⟩ := hmid
      exact hw₁
  exact communityOpsClose_returns.2 _ _ _ _ _ hw₂ hclose

/-- The test for a disabled device. -/
theorem returns_enabled {α : Type} {P : World π → Prop} {q : Driver π α} {f : World π → Driver π α}
    {Q : α → World π → Prop} (hP : ∀ w, P w → Enabled w)
    (hf : ∀ w, P w → Proc.Returns P (f w) Q) :
    Proc.Returns P (Proc.get >>= fun w => if w.dev.enable = false then q else f w) Q := by
  refine .get_bind fun w hw => .ite (fun henable => ?_) fun _ => (hf w hw).mono ?_ fun _ _ h => h
  · have hw := hP w hw
    rw [Enabled, henable] at hw
    cases hw
  · rintro _ rfl
    exact hw

theorem communityOpsIdentify_returns {uid idxStart idxEnd : ℤ} :
    Proc.Returns Enabled (communityOpsIdentify fp uid idxStart idxEnd) fun _ => EnabledIdle := by
  refine .modify_bind (M := Enabled) (fun _ h => h) (returns_enabled (fun _ h => h) fun w _ => ?_)
  refine .modify_bind (M := Enabled) (fun _ h => h) (.ofOption_bind fun prints _ => ?_)
  refine .modify_bind (M := Enabled) (fun _ h => h) (awaitCompletion_returns.bind fun exit => ?_)
  refine .ite (fun hdone => ?_) fun hdone => .pure fun w h => h.enabledIdle hdone
  refine .modify_bind (M := EnabledIdle) (fun w h => ⟨h.1, rfl⟩) (.get_bind fun w h => .pure ?_)
  rintro _ rfl
  exact h

/-- By induction on the rounds. -/
theorem searchRounds_returns {uid idxEnd : ℤ} (rounds : ℕ) :
    Proc.Returns Enabled (searchRounds fp uid idxEnd rounds) LeftBy := by
  induction rounds with
  | zero => exact fun w es exit w' es' _ hret => nomatch hret
  | succ rounds ih =>
    refine .get_bind fun w hw => .ite (fun _ => ?_) fun _ => ?_
    · refine .pure fun w' heq => ⟨?_, fun hne => absurd rfl hne⟩
      rw [heq]
      exact hw
    · have hround : Proc.Returns Enabled (searchRound fp uid idxEnd) LeftBy := by
        refine .modify_bind (M := Enabled) (fun _ h => h) (.get_bind fun w hw => ?_)
        refine .ofOption_bind fun prints _ => .modify_bind (M := Enabled) ?_ awaitCompletion_returns
        rintro _ rfl
        exact hw
      refine .bind (hround.mono (fun _ heq => heq ▸ hw) fun _ _ h => h) fun exit => ?_
      refine .ite (fun _ => .get_bind fun w' hw' => ?_) fun _ => .pure fun w h => h
      refine .ofOption_bind fun index _ => .modify_bind (M := Enabled) (fun w'' heq => ?_) ih
      rw [heq]
      exact hw'.1

theorem communityOpsSearch_returns {uid idxStart idxEnd : ℤ} :
    Proc.Returns Enabled (communityOpsSearch fp uid idxStart idxEnd) fun _ => EnabledIdle := by
  have hloop : Proc.Returns Enabled (searchLoop fp uid idxEnd) LeftBy :=
    fun w es => searchRounds_returns (es.length + 1) w es
  refine .modify_bind (M := Enabled) (fun _ h => h) (returns_enabled (fun _ h => h) fun w _ => ?_)
  refine .modify_bind (M := Enabled) (fun _ h => h) (hloop.bind fun exit => ?_)
  refine .ite (fun hdone => ?_) fun hdone => .pure fun w h => h.enabledIdle hdone
  refine .get_bind fun w hw => ?_
  refine .ite (fun _ => ?_) fun _ => ?_ <;>
  · refine .modify_bind (M := Enabled) (fun w' heq => by rw [heq]; exact hw.1) ?_
    exact .modify_bind (M := EnabledIdle) (fun _ h => ⟨h, rfl⟩) (.pure fun _ h => h)

theorem communityOpsClean_returns {uid idxStart idxEnd : ℤ} :
    Proc.Returns Enabled (communityOpsClean uid idxStart idxEnd : Driver π ℤ)
      fun _ => EnabledIdle := by
  refine returns_enabled (fun _ h => h) fun w _ => ?_
  refine .modify_bind (M := Enabled) (fun _ h => h) (.ite (fun _ => ?_) fun _ => ?_) <;>
  exact .modify_bind (M := EnabledIdle) (fun _ h => ⟨h, rfl⟩) (.pure fun _ h => h)

theorem communityOpsGetFeatureList_returns {uid idxStart idxEnd : ℤ} :
    Proc.Returns Enabled (communityOpsGetFeatureList uid idxStart idxEnd : Driver π _)
      fun _ => EnabledIdle := by
  refine returns_enabled (fun _ h => h) fun w _ => ?_
  refine .modify_bind (M := Enabled) (fun _ h => h) (.ofOption_bind fun found _ => ?_)
  exact .modify_bind (M := EnabledIdle) (fun _ h => ⟨h, rfl⟩) (.pure fun _ h => h)

/-- A rename does not open the device. -/
theorem bioOpsFeatureRename_returns {uid idx : ℤ} {newName : String} :
    Proc.Returns Enabled (bioOpsFeatureRename uid idx newName : Driver π ℤ)
      fun _ => EnabledIdle := by
  refine .modify_bind (M := Enabled) (fun _ h => h) (.get_bind fun w hw => ?_)
  refine .ofOption_bind fun renamed _ => .modify_bind (M := Enabled) ?_ ?_
  · rintro _ rfl
    exact hw
  · refine .ite (fun _ => ?_) fun _ => ?_ <;>
    exact .modify_bind (M := EnabledIdle) (fun _ h => ⟨h, rfl⟩) (.pure fun _ h => h)

/-- A verify whose template can be deserialized. -/
theorem communityOpsVerify_returns {uid idx : ℤ} {w₀ : World π}
    (h : ¬ Undecodable fp w₀ uid idx) :
    Proc.Returns (fun w => Enabled w ∧ verifyTemplate w uid idx = verifyTemplate w₀ uid idx)
      (communityOpsVerify fp uid idx) fun _ => EnabledIdle := by
  refine returns_enabled (fun _ h => h.1) fun w hw => ?_
  refine .modify_bind (M := Enabled) (fun _ h => h.1) (.ofOption_bind fun data hdata => ?_)
  cases hprint : fp.deserialize data with
  | none => exact absurd ⟨data, hw.2 ▸ hdata, hprint⟩ h
  | some verifyPrint =>
    refine .modify_bind (M := Enabled) (fun _ h => h) (awaitCompletion_returns.bind fun exit => ?_)
    refine .ite (fun hdone => ?_) fun hdone => .pure fun w h => h.enabledIdle hdone
    exact .modify_bind (M := EnabledIdle) (fun _ h => ⟨h.1, rfl⟩) (.pure fun _ h => h)

/-! ### Close -/

/-- While open or close is under way, no event sets the status. -/
theorem deliver_openClose_devStatus {e : Event π} (he : w.deliver fp e = some w')
    (hpending : w.pending = some .deviceOpen ∨ w.pending = some .deviceClose ∨ w.pending = none) :
    w'.dev.devStatus = w.dev.devStatus := by
  rcases deliver_cases he with rfl | rfl | ⟨async, hasync, hcallback⟩
  · rfl
  · exact communityOpsStopByUser_devStatus w
  · have hasync' : async = .deviceOpen ∨ async = .deviceClose := by
      rcases hpending with hp | hp | hp <;> rw [hasync] at hp <;> cases hp
      · exact .inl rfl
      · exact .inr rfl
    cases e with
    | deviceOpened ok =>
      obtain rfl := Option.some.inj he
      cases ok <;> split <;> rfl
    | deviceClosed =>
      obtain rfl := Option.some.inj he
      split <;> rfl
    | _ => rcases hasync' with rfl | rfl <;> simp [callbackOf] at hcallback

/-- Close, on both sides: the device is idle after it if it was before, or if it is not
answered in time. -/
theorem communityOpsClose_devStatus {c : Clock} (henable : w.dev.enable = true) (hshows : Shows w c)
    (h : communityOpsClose fp w es = .ret () w' es') :
    ∃ exit c', Clock.openPoller.poll c.startClose es = .ret exit c' es' ∧
      (w'.dev.devStatus = devsCommIdle ↔ w.dev.devStatus = devsCommIdle ∨ exit ≠ .done) := by
  obtain ⟨exit, w₁, hpoll, hexit⟩ := (communityOpsClose_eq_ret fp henable).mp h
  obtain ⟨c', hc', -⟩ := poll_openPoller_shows (c := c.startClose) hpoll
    ⟨hshows.idle, rfl, hshows.ctrlFlag, hshows.timeused, hshows.timeoutMS, rfl⟩ (Or.inr rfl)
  have hstatus := poll_openPoller_keeps (P := fun v => OpenCloseInv w.setAsynRunning.startClose v ∧
      v.dev.devStatus = w.dev.devStatus) hpoll
    (fun _ _ _ hs he =>
      ⟨hs.1.deliver he, (deliver_openClose_devStatus he hs.1.pending).trans hs.2⟩)
    (fun _ hs => ⟨⟨hs.1.config.trans ⟨rfl, rfl, rfl, rfl⟩, hs.1.store, hs.1.trace, hs.1.opsResult,
      hs.1.pending⟩, hs.2⟩)
    ⟨⟨.refl _, rfl, rfl, rfl, Or.inr (Or.inl rfl)⟩, rfl⟩
  refine ⟨exit, c', hc', ?_⟩
  rcases hexit with ⟨rfl, rfl⟩ | ⟨rfl, rfl⟩
  · have hkept : (w₁.setCtrlFlag .idle).dev.devStatus = w.dev.devStatus := hstatus.2
    simp [hkept]
  · exact iff_of_true rfl (Or.inr nofun)

/-! ### The other exits, on both sides -/

/-- `exit` shows how the operation leaves the device that it finds in `w`. -/
def ShowsExit {α : Type} (op : Driver π α) (exit : Proc Clock (Event π) Bool) (w : World π) :
    Prop :=
  ∀ c es a w' es', Shows w c → op w es = .ret a w' es' → ∃ busy c',
    exit c es = .ret busy c' es' ∧ Shows w' c' ∧ Enabled w' ∧
      (w'.dev.devStatus = devsCommIdle ↔ busy = false)

/-- The clock after the status has been restored, or not. -/
theorem Shows.setStatus {c : Clock} (h : Shows w c) {idle : Bool}
    (hconfig : w'.priv = w.priv ∧ w'.pending = w.pending)
    (hidle : idle = decide (w'.dev.devStatus = devsCommIdle)) : Shows w' { c with idle := idle } :=
  ⟨hidle, hconfig.1 ▸ h.asynFlag, hconfig.1 ▸ h.ctrlFlag, hconfig.1 ▸ h.timeused,
    hconfig.1 ▸ h.timeoutMS, hconfig.2 ▸ h.pending⟩

theorem communityOpsEnroll_showsExit {uid idx : ℤ} {bioIdxName : String}
    (henable : w.dev.enable = true) (hopened : w.dev.opsResult = opsOpenSuccess) :
    ShowsExit (communityOpsEnroll fp uid idx bioIdxName) enrollExit w := by
  intro c es r w' es' hshows h
  -- the enroll chooses its index, calls libfprint and waits
  simp only [communityOpsEnroll, Proc.get_bind, henable, Bool.true_eq_false, if_false,
    Proc.modify_bind, Proc.bind_eq_ret, Proc.ofOption_eq_ret] at h
  obtain ⟨idx', w, es, ⟨-, rfl, rfl⟩, exit, w₂, es₂, hawait, h⟩ := h
  obtain ⟨w₁, hpoll, rfl⟩ := awaitCompletion_eq_ret.mp hawait
  obtain ⟨c', hc', hphase, hstopped⟩ := poll_opPoller_phase (c := c.startEnroll) hpoll
    ⟨⟨rfl, rfl, hshows.ctrlFlag, rfl, hshows.timeoutMS, rfl⟩, .refl _, rfl, hopened, rfl, rfl,
      fun hs => absurd hs.symm (Option.some_ne_none _), rfl⟩ rfl
  -- only a timeout changes the device behind the loop
  have hends : es₂ = es' ∧
      w' = if exit = .timeout then w₁.setIdle opsEnrollTimeout notifyEnrollTimeout else w₁ := by
    cases exit <;> cases h <;> exact ⟨rfl, rfl⟩
  obtain ⟨rfl, rfl⟩ := hends
  have henable₁ : w₁.dev.enable = true := hphase.config.enable.trans henable
  have hstatus := hphase.devStatus
  refine ⟨exit == .done && c'.finish != some .print, c'.leaveEnroll exit, ?_, ?_, ?_, ?_⟩
  · simp only [enrollExit, Proc.modify_bind]
    exact Proc.bind_eq_ret.mpr ⟨exit, c', es₂, hc', rfl⟩
  · -- a timeout is shown as idle, any other exit as the callback has left it
    cases exit with
    | timeout =>
      exact hphase.shows.setStatus ⟨rfl, rfl⟩ (by simp [World.setIdle, BioDev.setDevStatus])
    | done | stopped => exact hphase.shows.setStatus ⟨rfl, rfl⟩ (by simp [hphase.shows.idle])
  · split <;> exact henable₁
  · -- idle after a timeout, after a stop, and after a print that has been stored
    cases exit with
    | timeout => exact iff_of_true rfl rfl
    | stopped =>
      rw [if_pos (.inr (hstopped.mp rfl))] at hstatus
      exact iff_of_true hstatus rfl
    | done =>
      -- the callback has set the flag: it has stored a print, or has reported an error and left the
      -- status
      have hnot : c'.stopped.isSome = false := by
        by_contra hsome
        cases hstopped.mpr (by simpa only [Bool.not_eq_false] using hsome)
      rw [hnot] at hstatus
      by_cases hfinish : c'.finish = some .print
      · rw [if_pos (.inl hfinish)] at hstatus
        exact iff_of_true hstatus (by simp [hfinish])
      · rw [if_neg (by simp [hfinish])] at hstatus
        have hbusy : w₁.dev.devStatus ≠ devsCommIdle := by
          rw [hstatus]
          decide
        exact iff_of_false hbusy (by simp [hfinish])

/-- The driver while it captures, next to its clock. -/
structure CapturePhase (w : World π) (c : Clock) : Prop where
  shows : Shows w c
  enable : w.dev.enable = true
  devStatus : w.dev.devStatus = if c.stopped.isSome then devsCommIdle else devsCaptureDoing
  pending : w.pending = some .deviceCapture ∧ w.captureData = none ∨ w.pending = none
  image : c.finish = some .print ↔ w.captureData.isSome = true

theorem CapturePhase.deliver {c : Clock} (h : CapturePhase w c) {e : Event π}
    (he : w.deliver fp e = some w') :
    ∃ c', c.deliverCapture e = some c' ∧ CapturePhase w' c' ∧ c'.stopped = c.stopped := by
  have hne : w.pending ≠ some .deviceOpen ∧ w.pending ≠ some .deviceClose ∧
      w.pending ≠ some .deviceEnroll ∧ w.pending ≠ some .deviceVerify ∧
      w.pending ≠ some .deviceIdentify ∧ w.pending ≠ some .deviceSearch := by
    rcases h.pending with ⟨hp, -⟩ | hp <;> simp [hp]
  -- only the events of a capture can do anything
  obtain ⟨hopen, hclose, henroll, hverify, hidentify, hsearch⟩ := hne
  cases e with
  | captureCompleted image =>
    obtain rfl := Option.some.inj he
    refine ⟨_, rfl, ?_⟩
    by_cases hp : w.pending = some .deviceCapture
    · -- until now there was no image: this one decides
      have hnone : w.captureData = none := by
        rcases h.pending with ⟨-, hnone⟩ | hpn
        · exact hnone
        · exact nomatch hp.symm.trans hpn
      rw [if_pos hp, if_pos (h.shows.pending.trans hp)]
      have hs := h.shows
      cases image with
      | none =>
        exact ⟨⟨⟨hs.idle, rfl, hs.ctrlFlag, hs.timeused, hs.timeoutMS, rfl⟩, h.enable, h.devStatus,
          .inr rfl,
          iff_of_false nofun (by simp [onCaptureCompleted, setAsynDone, complete, hnone])⟩, rfl⟩
      | some image =>
        exact ⟨⟨⟨hs.idle, rfl, hs.ctrlFlag, hs.timeused, hs.timeoutMS, rfl⟩, h.enable, h.devStatus,
          .inr rfl, iff_of_true rfl rfl⟩, rfl⟩
    · -- libfprint is done with it already
      rw [if_neg hp, if_neg (by rwa [h.shows.pending])]
      exact ⟨h, rfl⟩
  | stopByUser =>
    -- a stop keeps the picture, if there is one
    obtain rfl := Option.some.inj he
    obtain ⟨c', hc', hshows, hfinish, hstopped⟩ := h.shows.stopByUser
    have henable := (communityOpsStopByUser_frame w).config.enable.trans h.enable
    have hcapture : w.communityOpsStopByUser.captureData = w.captureData := by
      unfold communityOpsStopByUser
      split <;> rfl
    refine ⟨c', hc', ⟨hshows, henable, ?_, ?_, ?_⟩, hstopped⟩
    · rw [communityOpsStopByUser_devStatus, hstopped, h.devStatus]
    · rw [communityOpsStopByUser_pending, hcapture]
      exact h.pending
    · rw [hfinish, hcapture]
      exact h.image
  | deviceOpened | deviceClosed | enrollProgress | enrollCompleted | verifyCompleted
    | deviceIdentified | matchReport =>
    -- nobody waits for these
    refine ⟨c, rfl, ?_⟩
    simp only [World.deliver, hopen, hclose, henroll, hverify, hidentify, hsearch, if_false,
      or_self] at he
    obtain rfl := Option.some.inj he
    exact ⟨h, rfl⟩

/-- The loop of capture. -/
theorem simulates_capturePoller :
    (opPoller fp).Simulates Clock.capturePoller
      (fun w c => CapturePhase w c ∧ c.stopped = none)
      (fun w c => CapturePhase w c ∧ c.stopped ≠ none) := by
  refine simulates_of_phase ⟨fun _ => rfl, fun _ => rfl, fun _ => rfl⟩ (fun _ _ h => h.shows)
    (fun _ _ _ _ h he => h.deliver he) (fun w c h => ⟨?_, rfl⟩) (fun w c h hnot => ⟨?_, nofun⟩)
  · exact ⟨h.shows.tick fp, h.enable, h.devStatus, h.pending, h.image⟩
  · exact ⟨h.shows.stop fp _ _, h.enable, rfl, h.pending, h.image⟩

theorem fingerCapture_eq_ret {data : Option Bytes} (h : fingerCapture fp w es = .ret data w' es') :
    ∃ exit w₁, (opPoller fp).poll ((World.startAsync w).call .deviceCapture .deviceCapture) es =
        .ret exit w₁ es' ∧
      w' = (if exit = .timeout then w₁.setIdle opsCaptureTimeout notifyCaptureTimeout else w₁) ∧
      data = if exit = .done then w₁.captureData else none := by
  simp only [fingerCapture, Proc.modify_bind] at h
  obtain ⟨exit, w₂, es₂, hawait, h⟩ := Proc.bind_eq_ret.mp h
  obtain ⟨w₁, hpoll, rfl⟩ := awaitCompletion_eq_ret.mp hawait
  cases exit <;> cases h <;> exact ⟨_, w₁, hpoll, rfl, rfl⟩

/-- What capture does with an image, when it returns. -/
theorem setCaptured_of_ret {eigtype : EigType} {featureData : Bytes} {r : Option Bytes}
    (h : (match eigtype with
      | .data => do
        Proc.modify setCaptured
        return some featureData
      | .eigenvalue | .eigenvector => do
        let featureEncode ← Proc.ofOption (captureEncode featureData)
        Proc.modify setCaptured
        return some featureEncode : Driver π (Option Bytes)) w es = .ret r w' es') :
    w' = setCaptured w ∧ es' = es := by
  cases eigtype with
  | data =>
    cases h
    exact ⟨rfl, rfl⟩
  | eigenvalue | eigenvector =>
    obtain ⟨featureEncode, w₁, es₁, hencode, hset⟩ := Proc.bind_eq_ret.mp h
    obtain ⟨-, rfl, rfl⟩ := Proc.ofOption_eq_ret.mp hencode
    exact (Proc.pure_eq_ret.mp hset).2

theorem communityOpsCapture_showsExit (henable : w.dev.enable = true) :
    ShowsExit (communityOpsCapture fp) captureExit w := by
  intro c es r w' es' hshows h
  simp only [communityOpsCapture, Proc.get_bind, henable, Bool.true_eq_false, if_false,
    Proc.modify_bind] at h
  -- the capture calls libfprint and waits
  obtain ⟨data, w₂, es₂, hfinger, h⟩ := Proc.bind_eq_ret.mp h
  obtain ⟨exit, w₁, hpoll, rfl, rfl⟩ := fingerCapture_eq_ret hfinger
  have hinit : CapturePhase (World.call (World.startAsync
      { w with captureData := none, dev := w.dev.setDevStatus devsCaptureDoing })
        .deviceCapture .deviceCapture) c.startCapture :=
    ⟨⟨rfl, rfl, hshows.ctrlFlag, rfl, hshows.timeoutMS, rfl⟩, henable, rfl, .inl ⟨rfl, rfl⟩,
      iff_of_false nofun nofun⟩
  -- the loop is the one of the course
  obtain ⟨c', hc', hphase⟩ := Poller.poll_simulates simulates_capturePoller ⟨hinit, rfl⟩ hpoll
  have hcourse : captureExit c es =
      .ret (exit == .done && c'.finish != some .print) (c'.leaveCapture exit) es₂ := by
    simp only [captureExit, Proc.modify_bind]
    exact Proc.bind_eq_ret.mpr ⟨exit, c', es₂, hc', rfl⟩
  -- a timeout is shown as idle
  cases exit with
  | timeout =>
    cases h
    refine ⟨_, _, hcourse, ?_, hphase.1.enable, iff_of_true rfl rfl⟩
    exact hphase.1.shows.setStatus ⟨rfl, rfl⟩ (by simp [World.setIdle, BioDev.setDevStatus])
  | stopped =>
    -- after a stop the status is that of the stop
    cases h
    have hstatus := hphase.1.devStatus
    rw [if_pos (Option.isSome_iff_ne_none.2 hphase.2)] at hstatus
    refine ⟨_, _, hcourse, ?_, hphase.1.enable, iff_of_true hstatus rfl⟩
    refine hphase.1.shows.setStatus ⟨rfl, rfl⟩ ?_
    rw [hphase.1.shows.idle]
    exact (Bool.or_false _).trans (Bool.or_false _)
  | done =>
    have hstatus := hphase.1.devStatus
    rw [hphase.2, if_neg (by simp)] at hstatus
    have himage := hphase.1.image
    simp only [if_pos, reduceCtorEq, if_false] at h
    -- libfprint is done: with a picture the operation goes on, without one it leaves the status as
    -- it is
    cases hdata : w₁.captureData with
    | none =>
      rw [hdata] at h himage
      obtain ⟨-, rfl, rfl⟩ := Proc.pure_eq_ret.mp h
      have hfinish : (c'.finish == some .print) = false :=
        beq_eq_false_iff_ne.2 fun hprint => by simpa using himage.mp hprint
      refine ⟨_, _, hcourse, ?_, hphase.1.enable, ?_⟩
      · refine hphase.1.shows.setStatus ⟨rfl, rfl⟩ ?_
        rw [hphase.1.shows.idle, hfinish]
        exact (Bool.or_false _).trans (Bool.or_false _)
      · have hbusy : w'.dev.devStatus ≠ devsCommIdle := by
          rw [hstatus]
          decide
        exact iff_of_false hbusy (by simp [bne, hfinish])
    | some featureData =>
      rw [hdata] at h himage
      obtain ⟨rfl, rfl⟩ := setCaptured_of_ret h
      have hfinish : c'.finish = some .print := himage.mpr rfl
      refine ⟨_, _, hcourse, ?_, hphase.1.enable, iff_of_true rfl (by simp [hfinish])⟩
      exact hphase.1.shows.setStatus ⟨rfl, rfl⟩
        (by simp [hfinish, setCaptured, BioDev.setDevStatus, BioDev.setOpsResult,
          BioDev.setNotifyAbsMid])

/-- A verify whose template cannot be deserialized. -/
theorem communityOpsVerify_showsExit {uid idx : ℤ} (henable : w.dev.enable = true)
    (hundecodable : Undecodable fp w uid idx) :
    ShowsExit (communityOpsVerify fp uid idx) verifyExit w := by
  intro c es r w' es' hshows h
  obtain ⟨data, hdata, hnone⟩ := hundecodable
  simp only [communityOpsVerify, Proc.get_bind, henable, Bool.true_eq_false, if_false,
    Proc.modify_bind] at h
  obtain ⟨data', w₁, es₁, htemplate, hgives⟩ := Proc.bind_eq_ret.mp h
  obtain ⟨hdata', rfl, rfl⟩ := Proc.ofOption_eq_ret.mp htemplate
  obtain rfl := Option.some.inj (hdata'.symm.trans hdata)
  rw [hnone] at hgives
  obtain ⟨-, rfl, rfl⟩ := Proc.pure_eq_ret.mp hgives
  refine ⟨true, _, rfl, ⟨rfl, rfl, hshows.ctrlFlag, rfl, hshows.timeoutMS, hshows.pending⟩,
    henable, iff_of_false ?_ nofun⟩
  change devsVerifyDoing ≠ devsCommIdle
  decide

/-! ### A call -/

/-- An operation between an open and a close, when its exit is known. -/
theorem bioOps_of_showsExit {α : Type} {failed a : α} {op : Driver π α}
    {exit : Proc Clock (Event π) Bool} (henable : Enabled w)
    (hop : ∀ w₁, SameConfig w w₁ → w₁.store = w.store → w₁.dev.opsResult = opsOpenSuccess →
      ShowsExit op exit w₁)
    (h : bioOps fp failed op w es = .ret a w' es') :
    Enabled w' ∧ (w'.dev.devStatus = devsCommIdle ↔ ¬ TakesBusyCourse exit w es) := by
  -- open, the operation if open has succeeded, and close
  obtain ⟨r, w₁, es₁, w₂, es₂, hopen, hmid, hclose⟩ := (bioOps_eq_ret henable).mp h
  obtain ⟨hconfig, hstore, -, hresult⟩ := communityOpsOpen_spec henable hopen
  obtain ⟨opened, c₁, hc₁, hshows₁, hopened⟩ := communityOpsOpen_course henable hopen
  have hw₁ := communityOpsOpen_returns _ _ _ _ _ henable hopen
  -- the call has one course
  have hbusy : ∀ busy c, busyCourse exit w.clock es = .ret busy c es' →
      (TakesBusyCourse exit w es ↔ busy = true) := by
    intro busy c hcourse
    refine ⟨fun ⟨c', es'', h'⟩ => ?_, fun htrue => ⟨c, es', htrue ▸ hcourse⟩⟩
    injection hcourse.symm.trans h'
  rcases hresult with ⟨rfl, hresult⟩ | ⟨rfl, -⟩
  · -- the device is open: the operation shows how it is left, and close puts it right unless it
    -- times out
    obtain rfl := hopened.mpr rfl
    rw [if_pos rfl] at hmid
    obtain ⟨busy, c₂, hexit, hshows₂, henable₂, hstatus⟩ :=
      hop w₁ hconfig hstore hresult _ _ _ _ _ hshows₁ hmid
    obtain ⟨closed, c₃, hc₃, hidle⟩ := communityOpsClose_devStatus henable₂ hshows₂ hclose
    have hcourse : busyCourse exit w.clock es = .ret (busy && closed == .done) c₃ es' := by
      simp only [busyCourse, Proc.modify_bind]
      refine Proc.bind_eq_ret.mpr ⟨.done, c₁, es₁, hc₁, ?_⟩
      rw [Proc.modify_bind, if_pos rfl]
      refine Proc.bind_eq_ret.mpr ⟨busy, c₂, es₂, hexit, ?_⟩
      rw [Proc.modify_bind]
      exact Proc.bind_eq_ret.mpr ⟨closed, c₃, es', hc₃, rfl⟩
    refine ⟨communityOpsClose_returns.1 _ _ _ _ _ henable₂ hclose, ?_⟩
    rw [hidle, hbusy _ _ hcourse, hstatus]
    cases busy <;> simp
  · -- open has failed: the device is idle already, and a course that leaves it busy does not begin
    have hne : opened ≠ .done := fun hdone => absurd (hopened.mp hdone) (by decide)
    obtain ⟨-, rfl, rfl⟩ : a = failed ∧ w₂ = w₁ ∧ es₂ = es₁ := hmid
    have hidle := communityOpsClose_returns.2 _ _ _ _ _ hw₁ hclose
    refine ⟨hidle.enable, iff_of_true hidle.devStatus fun ⟨c', es'', h'⟩ => ?_⟩
    simp only [busyCourse, Proc.modify_bind] at h'
    obtain ⟨exit', c₂, es₃, hc₂, h'⟩ := Proc.bind_eq_ret.mp h'
    rw [hc₁] at hc₂
    cases hc₂
    rw [Proc.modify_bind, if_neg hne] at h'
    cases h'

/-- The store, the key and the device give the template. -/
theorem verifyTemplate_congr {w₁ : World π} (hconfig : SameConfig w w₁)
    (hstore : w₁.store = w.store) (uid idx : ℤ) :
    verifyTemplate w₁ uid idx = verifyTemplate w uid idx := by
  simp only [verifyTemplate, BioDev.query, hstore, hconfig.uuidOf, hconfig.biotype,
    hconfig.deviceName, hconfig.aesKey]

/-- A verify of a template that can be deserialized. -/
theorem bioOpsVerify_returns {uid idx r : ℤ} (henable : Enabled w)
    (hdecodable : ¬ Undecodable fp w uid idx)
    (h : bioOpsVerify fp uid idx w es = .ret r w' es') : EnabledIdle w' := by
  obtain ⟨r₁, w₁, es₁, w₂, es₂, hopen, hmid, hclose⟩ := (bioOps_eq_ret henable).mp h
  obtain ⟨hconfig, hstore, -, -⟩ := communityOpsOpen_spec henable hopen
  have hw₁ := communityOpsOpen_returns _ _ _ _ _ henable hopen
  have hw₂ : EnabledIdle w₂ := by
    split at hmid
    · exact communityOpsVerify_returns hdecodable _ _ _ _ _
        ⟨hw₁.enable, verifyTemplate_congr hconfig hstore uid idx⟩ hmid
    · obtain ⟨-, rfl, -⟩ := hmid
      exact hw₁
  exact communityOpsClose_returns.2 _ _ _ _ _ hw₂ hclose

theorem bioOpsStep_eq_some {call : BioOps × List (List (Event π))} :
    bioOpsStep fp w call = some w' ↔ ∃ u es', call.1.run fp w call.2 = .ret u w' es' := by
  rw [bioOpsStep]
  cases call.1.run fp w call.2 with
  | ret u w₁ es₁ =>
    refine ⟨fun h => ⟨u, es₁, by rw [Option.some.inj h]⟩, ?_⟩
    rintro ⟨_, _, ⟨⟩⟩
    rfl
  | waiting | crashed => exact iff_of_false nofun nofun

/-- What an operation that leaves the device idle gives as a call. -/
theorem idle_of_returns {α : Type} {p : Driver π α} {P : Prop} {u : Unit}
    (hp : Proc.Returns Enabled p fun _ => EnabledIdle) (henable : Enabled w)
    (h : discard p w es = .ret u w' es') (hP : ¬ P) :
    Enabled w' ∧ (w'.dev.devStatus = devsCommIdle ↔ ¬ P) := by
  obtain ⟨a, ha⟩ := Proc.discard_eq_ret.mp h
  have hidle := hp _ _ _ _ _ henable ha
  exact ⟨hidle.enable, iff_of_true hidle.devStatus hP⟩

/-- After a call the device is enabled still, and it is idle exactly if the call has not left
it busy. -/
theorem bioOpsStep_spec {call : BioOps × List (List (Event π))} (henable : Enabled w)
    (h : bioOpsStep fp w call = some w') :
    Enabled w' ∧ (w'.dev.devStatus = devsCommIdle ↔ ¬ LeavesBusy fp w call) := by
  obtain ⟨call, es⟩ := call
  obtain ⟨u, es', hrun⟩ := bioOpsStep_eq_some.mp h
  cases call with
  | enroll uid idx idxName =>
    -- the operations with a callback that leaves early are judged by their course
    obtain ⟨r, hrun⟩ := Proc.discard_eq_ret.mp hrun
    exact bioOps_of_showsExit henable (fun w₁ hconfig _ hresult => communityOpsEnroll_showsExit
      (hconfig.enable.trans henable) hresult) hrun
  | capture =>
    obtain ⟨r, hrun⟩ := Proc.discard_eq_ret.mp hrun
    rw [bioOpsCapture, Proc.get_bind] at hrun
    obtain ⟨caps, w₁, es₁, hcapture, hpure⟩ := Proc.bind_eq_ret.mp hrun
    obtain ⟨-, rfl, rfl⟩ := Proc.pure_eq_ret.mp hpure
    exact bioOps_of_showsExit henable (fun w₁ hconfig _ _ => communityOpsCapture_showsExit
      (hconfig.enable.trans henable)) hcapture
  | verify uid idx =>
    -- a verification can only leave it busy with a print that cannot be read
    obtain ⟨r, hrun⟩ := Proc.discard_eq_ret.mp hrun
    by_cases hundecodable : Undecodable fp w uid idx
    · rw [LeavesBusy, and_iff_right hundecodable]
      refine bioOps_of_showsExit henable (fun w₁ hconfig hstore _ => communityOpsVerify_showsExit
        (hconfig.enable.trans henable) ?_) hrun
      rwa [Undecodable, verifyTemplate_congr hconfig hstore]
    · have hidle := bioOpsVerify_returns henable hundecodable hrun
      exact ⟨hidle.enable, iff_of_true hidle.devStatus fun h => hundecodable h.1⟩
  | identify uid idxStart idxEnd =>
    -- the others set it idle themselves, whatever happens
    exact idle_of_returns (bioOps_returns (communityOpsIdentify_returns.mono
      (fun _ h => h.enable) fun _ _ h => h)) henable hrun id
  | search uid idxStart idxEnd =>
    exact idle_of_returns (bioOps_returns (communityOpsSearch_returns.mono
      (fun _ h => h.enable) fun _ _ h => h)) henable hrun id
  | clean uid idxStart idxEnd =>
    exact idle_of_returns (bioOps_returns (communityOpsClean_returns.mono
      (fun _ h => h.enable) fun _ _ h => h)) henable hrun id
  | getFeatureList uid idxStart idxEnd =>
    exact idle_of_returns (bioOps_returns (communityOpsGetFeatureList_returns.mono
      (fun _ h => h.enable) fun _ _ h => h)) henable hrun id
  | featureRename uid idx newName =>
    exact idle_of_returns bioOpsFeatureRename_returns henable hrun id

/-- A stop request finds an idle device as it is. -/
theorem idleWorld_iff : IdleWorld w ↔ w.dev.devStatus = devsCommIdle := by
  refine ⟨fun h => h.devStatus, fun h => ⟨h, ?_⟩⟩
  rw [communityOpsStopByUser, if_pos h]

/-! ### Runs -/

variable (fp) in
/-- If the call returns, it does not leave the device busy. -/
def KeepsIdle (w : World π) (call : BioOps × List (List (Event π))) : Prop :=
  ∀ w', bioOpsStep fp w call = some w' → ¬ LeavesBusy fp w call

/-- After every call of a run the device is idle, exactly if no call of the run leaves it
busy. -/
theorem along_idleAfter_iff (henable : w.dev.enable = true)
    (calls : List (BioOps × List (List (Event π)))) :
    Machine.Along (bioOpsStep fp) (IdleAfter fp) w calls ↔
      Machine.Along (bioOpsStep fp) (KeepsIdle fp) w calls := by
  induction calls generalizing w with
  | nil => exact Iff.rfl
  | cons call calls ih =>
    refine and_congr (forall_congr' fun w' => imp_congr_right fun hw' => ?_)
      (forall_congr' fun w' => imp_congr_right fun hw' => ih (bioOpsStep_spec henable hw').1)
    rw [idleWorld_iff, (bioOpsStep_spec henable hw').2]

end Idle

/-- A clean, between an open and a close that are answered. -/
theorem along_idleAfter_clean :
    idleWorld.dev.enable = true ∧
      (Machine.Along (bioOpsStep bytesLibfprint) (IdleAfter bytesLibfprint) idleWorld
        [(.clean 1000 0 0, [[.deviceOpened true], [.deviceClosed]])] ↔
      Machine.Along (bioOpsStep bytesLibfprint) (KeepsIdle bytesLibfprint) idleWorld
        [(.clean 1000 0 0, [[.deviceOpened true], [.deviceClosed]])]) :=
  ⟨rfl, along_idleAfter_iff rfl _⟩

/-- libfprint ends an enroll with an error; the device is closed and still enrolling. -/
theorem not_along_idleAfter :
    ¬ Machine.Along (bioOpsStep bytesLibfprint) (IdleAfter bytesLibfprint) idleWorld
      [(.enroll 1000 0 "a",
        [[.deviceOpened true], [.enrollCompleted .error], [.deviceClosed]])] := by
  rintro ⟨h, -⟩
  have hbusy : (bioOpsStep bytesLibfprint idleWorld (.enroll 1000 0 "a",
      [[.deviceOpened true], [.enrollCompleted .error], [.deviceClosed]])).map
        (fun w => w.dev.devStatus) = some devsEnrollDoing := by decide +kernel
  obtain ⟨w, hw, hstatus⟩ := Option.map_eq_some_iff.mp hbusy
  exact absurd (hstatus.symm.trans (h w hw).devStatus) (by decide)

end BiometricAuth
