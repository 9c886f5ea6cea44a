import BiometricAuth.Driver.Enroll
import BiometricAuth.Storage.UserFeatures

/-!
# Identify

`community_ops_identify` returns the field in which it was told the user. A match report puts the
user there whose sample it finds equal; every other report, and a match that finds none, leaves what
was asked for. So the user that is named depends on the match reports of libfprint and on the exit
of the loop, and the code of the reply on the last report and on close.

`IdentifyClock` collects the reports next to a `Clock`, `identifyCourse` is the course it takes, and
`bioOpsIdentify_course` says what an identify returns, by its course.
-/

namespace BiometricAuth

open Process World

/-! ### The course of an identify -/

section Course

variable {π : Type}

/-- A clock and the match reports since the identification was started. -/
structure IdentifyClock (π : Type) where
  clock : Clock
  reports : List (MatchReport π)

namespace IdentifyClock

/-- What an event does. -/
def deliver (c : IdentifyClock π) : Event π → Option (IdentifyClock π)
  | .matchReport report =>
    some (if c.clock.pending = some .deviceIdentify then { c with reports := c.reports ++ [report] }
      else c)
  | .deviceIdentified =>
    some (if c.clock.pending = some .deviceIdentify then
      { c with clock := { c.clock with pending := none, asynFlag := .done } } else c)
  | e => (c.clock.deliver e).map fun clock => { c with clock }

/-- The loop of an operation. -/
def opPoller : Poller (IdentifyClock π) (Event π) where
  deliver := deliver
  isDone c := c.clock.asynFlag == .done
  timeUp c := decide (c.clock.timeused > c.clock.timeoutMS)
  tick c :=
    { c with clock := { c.clock with timeused := c.clock.timeused + fingerCheckIntervalMs } }
  isStopping c := c.clock.ctrlFlag == .stoping
  stop c := { c with clock := { c.clock with ctrlFlag := .stopped, idle := true } }

/-- The loop of open and close. -/
def openPoller : Poller (IdentifyClock π) (Event π) :=
  { opPoller with isStopping := fun _ => false }

/-- The identification is under way. -/
def startIdentify (c : Clock) : IdentifyClock π where
  clock :=
    { c with
      idle := false, asynFlag := .running, timeused := 0, pending := some .deviceIdentify }
  reports := []

end IdentifyClock

/-- The course of an identify. -/
inductive IdentifyCourse (π : Type)
  /-- The device cannot be opened. -/
  | notOpened
  /-- The callback was called with `reports`, the loop was left by `exit`, and `closed` says whether
  close was answered in time. -/
  | opened (reports : List (MatchReport π)) (exit : Exit) (closed : Bool)

/-- The course an identify takes. -/
def identifyCourse : Proc (IdentifyClock π) (Event π) (IdentifyCourse π) := do
  Proc.modify fun c => { c with clock := c.clock.startOpen }
  let opened ← IdentifyClock.openPoller.poll
  Proc.modify fun c => { c with clock := { c.clock with idle := true } }
  if opened = .done then
    Proc.modify fun c => IdentifyClock.startIdentify c.clock
    let exit ← IdentifyClock.opPoller.poll
    Proc.modify fun c =>
      { c with clock := { c.clock with idle := c.clock.idle || exit != .stopped } }
    let c ← Proc.get
    Proc.modify fun c => { c with clock := c.clock.startClose }
    let closed ← IdentifyClock.openPoller.poll
    return .opened c.reports exit (closed == .done)
  else
    Proc.modify fun c => { c with clock := c.clock.startClose }
    let _ ← IdentifyClock.openPoller.poll
    return .notOpened

/-- What the reports say: whether the last one that is no error is a match. -/
def verdict (reports : List (MatchReport π)) : Option Bool :=
  reports.foldl (fun verdict report =>
    match report with
    | .error => verdict
    | .noMatch => some false
    | .matched _ => some true) none

/-- The result they leave behind, after that of open. -/
def verdictResult : Option Bool → ℤ
  | none => opsOpenSuccess
  | some false => opsIdentifyNoMatch
  | some true => opsIdentifyMatch

theorem verdict_append (reports : List (MatchReport π)) (report : MatchReport π) :
    verdict (reports ++ [report]) =
      match report with
      | .error => verdict reports
      | .noMatch => some false
      | .matched _ => some true := by
  rw [verdict, List.foldl_append]
  rfl

/-- A verdict is a match only if a match was reported. -/
theorem exists_matched_of_verdict {reports : List (MatchReport π)}
    (h : verdict reports = some true) : ∃ print, .matched print ∈ reports := by
  induction reports using List.reverseRecOn with
  | nil => cases h
  | append_singleton reports report ih =>
    rw [verdict_append] at h
    cases report with
    | error =>
      obtain ⟨print, hprint⟩ := ih h
      exact ⟨print, List.mem_append_left _ hprint⟩
    | noMatch => cases h
    | matched print => exact ⟨print, by simp⟩

end Course

/-! ### The user that is named -/

section Named

variable {π : Type} {fp : Libfprint π} {w w' w₀ : World π}

/-- The user after a report, when it was `uid` before. -/
def reportUid (fp : Libfprint π) (w : World π) (idxStart idxEnd uid : ℤ) :
    MatchReport π → Option ℤ
  | .matched print => do
    let infos ← bioStoGetFeatureInfo w.uuidOf w.store.db (w.dev.query uid idxStart idxEnd)
    identifyUid fp w.priv.aesKey print infos uid
  | _ => some uid

/-- The user after all of them. -/
def reportsUid (fp : Libfprint π) (w : World π) (idxStart idxEnd uid : ℤ)
    (reports : List (MatchReport π)) : Option ℤ :=
  reports.foldlM (reportUid fp w idxStart idxEnd) uid

/-- Only the device and the database matter. -/
theorem reportUid_config (h : SameConfig w₀ w) (hstore : w.store = w₀.store) :
    reportUid fp w = reportUid fp w₀ := by
  funext idxStart idxEnd uid report
  cases report with
  | error | noMatch => rfl
  | matched print =>
    simp only [reportUid, BioDev.query, h.uuidOf, hstore, h.biotype, h.deviceName, h.aesKey]

/-- The callback. -/
theorem onMatchCbIdentify_uid {report : MatchReport π}
    (h : onMatchCbIdentify fp w report = some w') :
    ∃ uid, reportUid fp w w.identifyData.idxStart w.identifyData.idxEnd w.identifyData.uid report =
        some uid ∧
      w'.identifyData = { w.identifyData with uid := uid } ∧
      w'.trace = w.trace ++ [.onMatchCbIdentify report] ∧
      w'.priv = w.priv ∧ w'.pending = w.pending ∧ w'.dev.devStatus = w.dev.devStatus ∧
      w'.dev.opsResult =
        match report with
        | .error => w.dev.opsResult
        | .noMatch => opsIdentifyNoMatch
        | .matched _ => opsIdentifyMatch := by
  cases report with
  | error | noMatch =>
    -- nothing is read for an error or a mismatch
    obtain rfl := Option.some.inj h
    exact ⟨_, rfl, rfl, rfl, rfl, rfl, rfl, rfl⟩
  | matched print =>
    -- the list is read, and the prints of it are compared in its order
    simp only [onMatchCbIdentify, Option.bind_eq_bind, Option.bind_eq_some_iff,
      Option.some.injEq] at h
    obtain ⟨infos, hinfos, uid, huid, rfl⟩ := h
    refine ⟨uid, ?_, rfl, rfl, rfl, rfl, rfl, rfl⟩
    exact Option.bind_eq_some_iff.mpr ⟨infos, (listFeatureInfo_eq_some_iff.mp hinfos).1, huid⟩

end Named

/-! ### While the driver waits for the identification -/

section IdentifyPhase

variable {π : Type} {fp : Libfprint π} {w w' w₀ : World π} {c : IdentifyClock π}
  {es es' : List (List (Event π))}

/-- The driver since the identification was started in `w₀`, next to its clock. -/
structure IdentifyPhase (fp : Libfprint π) (w₀ w : World π) (c : IdentifyClock π) : Prop where
  shows : Shows w c.clock
  config : SameConfig w₀ w
  store : w.store = w₀.store
  pending : w.pending = some .deviceIdentify ∨ w.pending = none
  trace : w.trace = w₀.trace ++ c.reports.map .onMatchCbIdentify
  /-- The user named so far. -/
  named : ∃ uid, reportsUid fp w₀ w₀.identifyData.idxStart w₀.identifyData.idxEnd
    w₀.identifyData.uid c.reports = some uid ∧ w.identifyData = { w₀.identifyData with uid := uid }

/-- The result is that of the last report, as long as no stop was taken note of. -/
def Reported (w : World π) (c : IdentifyClock π) : Prop :=
  w.dev.opsResult = verdictResult (verdict c.reports)

/-- A match report. -/
theorem IdentifyPhase.matchReport (h : IdentifyPhase fp w₀ w c) {report : MatchReport π}
    (hpending : w.pending = some .deviceIdentify)
    (he : onMatchCbIdentify fp w report = some w') :
    IdentifyPhase fp w₀ w' { c with reports := c.reports ++ [report] } ∧
      (Reported w c → Reported w' { c with reports := c.reports ++ [report] }) := by
  obtain ⟨uid, huid, hdata, htrace, hpriv, hpending', hstatus, hresult⟩ := onMatchCbIdentify_uid he
  have hframe := onMatchCbIdentify_frame he
  obtain ⟨uid₀, hnamed, hdata₀⟩ := h.named
  refine ⟨⟨?_, h.config.trans hframe.config, ?_, .inl (hpending'.trans hpending), ?_, uid, ?_, ?_⟩,
    fun hreported => ?_⟩
  · -- the flags are not touched
    have hshows := h.shows
    exact ⟨by rw [hshows.idle, hstatus], by rw [hshows.asynFlag, hpriv],
      by rw [hshows.ctrlFlag, hpriv], by rw [hshows.timeused, hpriv],
      by rw [hshows.timeoutMS, hpriv], by rw [hshows.pending, hpending']⟩
  · exact (hframe.store (by simp [hpending])).trans h.store
  · -- the trace and the reports grow by this one
    rw [htrace, h.trace, List.map_append, List.append_assoc]
    rfl
  · -- the uid that is named goes by all reports, the last of them included
    rw [reportsUid, List.foldlM_append]
    rw [reportUid_config h.config h.store, hdata₀] at huid
    exact Option.bind_eq_some_iff.mpr ⟨uid₀, hnamed, by simpa using huid⟩
  · rw [hdata, hdata₀]
  · -- the result is the verdict of the last report that was no error
    unfold Reported
    rw [hresult, verdict_append]
    cases report with
    | error => exact hreported
    | noMatch | matched => rfl

/-- Every event. -/
theorem IdentifyPhase.deliver (h : IdentifyPhase fp w₀ w c) {e : Event π}
    (he : w.deliver fp e = some w') :
    ∃ c', c.deliver e = some c' ∧ IdentifyPhase fp w₀ w' c' ∧ (Reported w c → Reported w' c') := by
  have hne : w.pending ≠ some .deviceOpen ∧ w.pending ≠ some .deviceClose ∧
      w.pending ≠ some .deviceEnroll ∧ w.pending ≠ some .deviceCapture ∧
      w.pending ≠ some .deviceVerify ∧ w.pending ≠ some .deviceSearch := by
    rcases h.pending with hp | hp <;> simp [hp]
  -- only the events of an identification can do anything
  obtain ⟨hopen, hclose, henroll, hcapture, hverify, hsearch⟩ := hne
  have hshows := h.shows
  cases e with
  | matchReport report =>
    refine ⟨_, rfl, ?_⟩
    -- a report while libfprint is working on the prints goes to the callback
    by_cases hp : w.pending = some .deviceIdentify
    · rw [if_pos (hshows.pending.trans hp)]
      simp only [World.deliver, hp] at he
      exact h.matchReport hp he
    · rw [if_neg (by rwa [hshows.pending])]
      have hnone := h.pending.resolve_left hp
      simp only [World.deliver, hnone] at he
      obtain rfl := Option.some.inj he
      exact ⟨h, fun hreported => hreported⟩
  | deviceIdentified =>
    obtain rfl := Option.some.inj he
    refine ⟨_, rfl, ?_⟩
    by_cases hp : w.pending = some .deviceIdentify
    · rw [if_pos (.inl hp), if_pos (hshows.pending.trans hp)]
      exact ⟨⟨⟨hshows.idle, rfl, hshows.ctrlFlag, hshows.timeused, hshows.timeoutMS, rfl⟩,
        h.config.trans ⟨rfl, rfl, rfl, rfl⟩, h.store, .inr rfl, h.trace, h.named⟩,
        fun hreported => hreported⟩
    · rw [if_neg (by simp [hp, hsearch]), if_neg (by rwa [hshows.pending])]
      exact ⟨h, fun hreported => hreported⟩
  | stopByUser =>
    obtain rfl := Option.some.inj he
    obtain ⟨clock, hclock, hshows', -⟩ := hshows.stopByUser
    have hframe := communityOpsStopByUser_frame w
    have hdata : w.communityOpsStopByUser.identifyData = w.identifyData := by
      unfold communityOpsStopByUser
      split <;> rfl
    refine ⟨{ c with clock }, by simp [IdentifyClock.deliver, hclock],
      ⟨hshows', h.config.trans hframe.config, ?_, ?_, ?_, ?_⟩, fun hreported => ?_⟩
    · rw [communityOpsStopByUser_store, h.store]
    · rw [communityOpsStopByUser_pending]
      exact h.pending
    · rw [communityOpsStopByUser_trace, h.trace]
    · rw [hdata]
      exact h.named
    · rw [Reported, communityOpsStopByUser_opsResult]
      exact hreported
  | deviceOpened | deviceClosed | enrollProgress | enrollCompleted | captureCompleted
    | verifyCompleted =>
    -- nobody waits for these
    refine ⟨c, ?_, ?_⟩
    · simp [IdentifyClock.deliver, Clock.deliver, hshows.pending, hopen, hclose, henroll]
    · simp only [World.deliver, hopen, hclose, henroll, hcapture, hverify, if_false] at he
      obtain rfl := Option.some.inj he
      exact ⟨h, fun hreported => hreported⟩

/-- The loop of identify. -/
theorem simulates_identifyPoller (fp : Libfprint π) (w₀ : World π) :
    (opPoller fp).Simulates IdentifyClock.opPoller
      (fun w c => IdentifyPhase fp w₀ w c ∧ Reported w c) (fun w c => IdentifyPhase fp w₀ w c) := by
  refine simulates_of_shows IdentifyClock.clock
    ⟨fun _ => rfl, fun _ => rfl, fun _ => rfl⟩ (fun _ _ h => h.1.shows) (fun _ _ h => h.shows)
    ?deliver ?deliverStopped ?tick ?stop
  -- a callback before the stop
  case deliver =>
    rintro w c e w' ⟨hphase, hreported⟩ he
    obtain ⟨c', hc', hphase', hreported'⟩ := hphase.deliver he
    exact ⟨c', hc', hphase', hreported' hreported⟩
  -- a callback after it, when the result may be any
  case deliverStopped =>
    intro w c e w' hphase he
    obtain ⟨c', hc', hphase', -⟩ := hphase.deliver he
    exact ⟨c', hc', hphase'⟩
  -- a sleep
  case tick =>
    rintro w c ⟨h, hreported⟩
    exact ⟨⟨h.shows.tick fp, h.config.trans ⟨rfl, rfl, rfl, rfl⟩, h.store, h.pending, h.trace,
      h.named⟩, hreported⟩
  -- the stop
  case stop =>
    rintro w c ⟨h, -⟩
    exact ⟨h.shows.stop fp _ _, h.config.trans ⟨rfl, rfl, rfl, rfl⟩, h.store, h.pending, h.trace,
      h.named⟩

/-- `community_ops_identify` on an opened device. -/
theorem communityOpsIdentify_course {uid idxStart idxEnd named : ℤ} {c : Clock} (hshows : Shows w c)
    (henable : w.dev.enable = true) (hopened : w.dev.opsResult = opsOpenSuccess)
    (h : communityOpsIdentify fp uid idxStart idxEnd w es = .ret named w' es') :
    ∃ exit c' prints, IdentifyClock.opPoller.poll (IdentifyClock.startIdentify c) es =
        .ret exit c' es' ∧
      Shows w' { c'.clock with idle := c'.clock.idle || exit != .stopped } ∧ SameConfig w w' ∧
      if exit = .done then
        createPrints fp.deserialize w.uuidOf w.priv.aesKey w.store.db w.dev uid idxStart idxEnd =
            some prints ∧
          w'.trace = w.trace ++ .deviceIdentify prints :: c'.reports.map .onMatchCbIdentify ∧
          reportsUid fp w idxStart idxEnd uid c'.reports = some named ∧
          w'.dev.opsResult = verdictResult (verdict c'.reports)
      else named = -1 := by
  -- an enabled device: the prints are read, libfprint is asked, and the loop waits
  simp only [communityOpsIdentify, Proc.modify_bind, Proc.get_bind, henable, Bool.true_eq_false,
    if_false, Proc.bind_eq_ret, Proc.ofOption_eq_ret] at h
  obtain ⟨prints, w, es, ⟨hprints, rfl, rfl⟩, exit, w₂, es₂, hawait, h⟩ := h
  obtain ⟨w₁, hpoll, rfl⟩ := awaitCompletion_eq_ret.mp hawait
  set w₀ : World π := (startAsync { w with
    identifyData := ⟨uid, idxStart, idxEnd⟩
    dev := w.dev.setDevStatus opsTypeIdentify }).call .deviceIdentify (.deviceIdentify prints)
    with hw₀
  have hphase : IdentifyPhase fp w₀ w₀ (IdentifyClock.startIdentify c) :=
    ⟨⟨rfl, rfl, hshows.ctrlFlag, rfl, hshows.timeoutMS, rfl⟩, .refl _, rfl, .inl rfl,
      (List.append_nil _).symm, _, rfl, rfl⟩
  have hconfig₀ : SameConfig w w₀ := ⟨rfl, rfl, rfl, rfl⟩
  -- the loop is the one of the course
  obtain ⟨c', hc', hexit⟩ := Poller.poll_simulates (simulates_identifyPoller fp w₀)
    ⟨hphase, hopened⟩ hpoll
  have hphase' : IdentifyPhase fp w₀ w₁ c' := by
    split at hexit
    · exact hexit
    · exact hexit.1
  have hshows' := hphase'.shows
  -- behind the loop only the status of the device can change
  have hidle : ∀ {w₂ : World π} {idle : Bool}, w₂.priv = w₁.priv → w₂.pending = w₁.pending →
      idle = decide (w₂.dev.devStatus = devsCommIdle) →
        Shows w₂ { c'.clock with idle := idle } := by
    intro w₂ idle hpriv hpending hidle
    exact ⟨hidle, by rw [hpriv]; exact hshows'.asynFlag, by rw [hpriv]; exact hshows'.ctrlFlag,
      by rw [hpriv]; exact hshows'.timeused, by rw [hpriv]; exact hshows'.timeoutMS,
      by rw [hpending]; exact hshows'.pending⟩
  cases exit with
  | done =>
    -- the reports decide: the user named is the one of the last callback
    simp only [if_true, Proc.modify_bind, Proc.get_bind, reduceCtorEq, if_false] at h
    obtain ⟨rfl, rfl, rfl⟩ := Proc.pure_eq_ret.mp h
    refine ⟨.done, c', prints, hc', hidle rfl rfl (Bool.or_true _),
      (hconfig₀.trans hphase'.config).trans ⟨rfl, rfl, rfl, rfl⟩, ?_⟩
    obtain ⟨uid', hnamed, hdata⟩ := hphase'.named
    rw [if_pos rfl, hdata]
    refine ⟨hprints, ?_, hnamed, hexit.2⟩
    change w₁.trace = _
    rw [hphase'.trace]
    exact List.append_assoc _ _ _
  | timeout =>
    -- a timeout or a stop names nobody
    obtain ⟨rfl, rfl, rfl⟩ := Proc.pure_eq_ret.mp h
    exact ⟨.timeout, c', prints, hc', hidle rfl rfl (Bool.or_true _),
      (hconfig₀.trans hphase'.config).trans ⟨rfl, rfl, rfl, rfl⟩, rfl⟩
  | stopped =>
    obtain ⟨rfl, rfl, rfl⟩ := Proc.pure_eq_ret.mp h
    exact ⟨.stopped, c', prints, hc', hidle rfl rfl ((Bool.or_false _).trans hshows'.idle),
      hconfig₀.trans hphase'.config, rfl⟩

end IdentifyPhase

/-! ### The whole request -/

section IdentifyRequest

variable {π : Type} {fp : Libfprint π} {w w' : World π} {c c' : Clock}
  {es es' : List (List (Event π))}

/-- What an identify for `uid` has come to when it has named `named`. -/
def IdentifyCourse.Ends (fp : Libfprint π) (w w' : World π) (uid idxStart idxEnd named : ℤ) :
    IdentifyCourse π → Prop
  | .notOpened => named = -1
  | .opened reports exit closed =>
    if exit = .done then
      (∃ prints, createPrints fp.deserialize w.uuidOf w.priv.aesKey w.store.db w.dev uid idxStart
          idxEnd = some prints ∧
        w'.trace = w.trace ++ ([.deviceOpen, .deviceIdentify prints] ++
          reports.map .onMatchCbIdentify ++ [.deviceClose])) ∧
      reportsUid fp w idxStart idxEnd uid reports = some named ∧
      w'.dev.opsResult = if closed then verdictResult (verdict reports) else opsCloseFail
    else named = -1

/-- Open and close do not look at the reports. -/
theorem poll_openPoller_reports (reports : List (MatchReport π)) {exit : Exit}
    (hpending : c.pending = some .deviceOpen ∨ c.pending = some .deviceClose)
    (hpoll : Clock.openPoller.poll c es = .ret exit c' es') :
    IdentifyClock.openPoller.poll ⟨c, reports⟩ es = .ret exit ⟨c', reports⟩ es' := by
  have hsim : (Clock.openPoller (π := π)).Simulates IdentifyClock.openPoller
      (fun c d => d = ⟨c, reports⟩ ∧ (c.pending = some .deviceOpen ∨ c.pending = some .deviceClose ∨
        c.pending = none)) (fun _ _ => False) := by
    refine ⟨⟨?_, ?_⟩, ⟨fun _ _ _ _ h => h.elim, fun _ _ h => h.elim⟩, ?_, ?_, ?_, ?_⟩
    · -- the events of open and close leave the reports alone
      rintro c _ e c' ⟨rfl, hpending⟩ he
      have he : c.deliver e = some c' := he
      have hne : c.pending ≠ some .deviceIdentify ∧ c.pending ≠ some .deviceEnroll := by
        rcases hpending with hp | hp | hp <;> simp [hp]
      refine ⟨⟨c', reports⟩, ?_, rfl, ?_⟩
      · change IdentifyClock.deliver ⟨c, reports⟩ e = _
        cases e with
        | matchReport | deviceIdentified =>
          obtain rfl := Option.some.inj he
          exact congrArg some (if_neg hne.1)
        | _ => simp [IdentifyClock.deliver, he]
      · cases e with
        | deviceOpened | deviceClosed =>
          obtain rfl := Option.some.inj he
          split
          · exact .inr (.inr rfl)
          · exact hpending
        | enrollProgress | enrollCompleted =>
          simp only [Clock.deliver, hne.2, if_false] at he
          obtain rfl := Option.some.inj he
          exact hpending
        | stopByUser =>
          obtain rfl := Option.some.inj he
          split <;> exact hpending
        | _ =>
          obtain rfl := Option.some.inj he
          exact hpending
    · -- what the loop looks at is on the clock
      rintro c _ ⟨rfl, -⟩
      rfl
    · rintro c _ ⟨rfl, -⟩
      rfl
    · rintro c _ ⟨rfl, hpending⟩
      exact ⟨rfl, hpending⟩
    · rintro c _ ⟨rfl, -⟩
      rfl
    · rintro c _ - hstopping
      cases hstopping
  obtain ⟨d, hd, hexit⟩ := Poller.poll_simulates hsim
    ⟨rfl, hpending.elim .inl fun h => .inr (.inl h)⟩ hpoll
  split at hexit
  · exact hexit.elim
  · rw [hd, hexit.1]

/-- What a `bio_ops_identify` returns, by its course. -/
theorem bioOpsIdentify_course {uid idxStart idxEnd named : ℤ} (henable : w.dev.enable = true)
    (h : bioOpsIdentify fp uid idxStart idxEnd w es = .ret named w' es') :
    ∃ course c', identifyCourse ⟨w.clock, []⟩ es = .ret course c' es' ∧
      course.Ends fp w w' uid idxStart idxEnd named := by
  -- open, the identification if open has succeeded, and close
  obtain ⟨r₁, w₁, es₁, w₂, es₂, hopen, hop, hclose⟩ := (bioOps_eq_ret henable).mp h
  obtain ⟨hconfig, hstore, htrace, hresult⟩ := communityOpsOpen_spec henable hopen
  obtain ⟨opened, c₁, hc₁, hshows₁, hopened⟩ := communityOpsOpen_course henable hopen
  have henable₁ := hconfig.enable.trans henable
  -- no report has come while the device was opened
  have hd₁ := poll_openPoller_reports ([] : List (MatchReport π)) (.inl rfl) hc₁
  by_cases hr : r₁ = 0
  · rw [if_pos hr] at hop
    obtain rfl := hopened.mpr hr
    have hresult₁ : w₁.dev.opsResult = opsOpenSuccess := by
      rcases hresult with ⟨-, hresult⟩ | ⟨hr', -⟩
      · exact hresult
      · exact absurd (hr'.symm.trans hr) (by decide)
    obtain ⟨exit, d₂, prints, hd₂, hshows₂, hconfig₂, hends⟩ :=
      communityOpsIdentify_course hshows₁ henable₁ hresult₁ hop
    -- close adds a call, and can turn the result into its own failure
    obtain ⟨-, -, htrace₃, -⟩ := communityOpsClose_spec (hconfig₂.enable.trans henable₁) hclose
    obtain ⟨closed, c₃, hc₃, -, hresult₃⟩ :=
      communityOpsClose_course (hconfig₂.enable.trans henable₁) hshows₂ hclose
    have hd₃ := poll_openPoller_reports d₂.reports (.inr rfl) hc₃
    refine ⟨.opened d₂.reports exit (closed == .done), ⟨c₃, d₂.reports⟩, ?_, ?_⟩
    · -- the course: the reports, how the loop was left, and whether close has been heard
      simp only [identifyCourse, Proc.modify_bind]
      refine Proc.bind_eq_ret.mpr ⟨.done, _, es₁, hd₁, ?_⟩
      rw [if_pos rfl]
      simp only [Proc.modify_bind]
      refine Proc.bind_eq_ret.mpr ⟨exit, d₂, es₂, hd₂, ?_⟩
      simp only [Proc.modify_bind, Proc.get_bind]
      exact Proc.bind_eq_ret.mpr ⟨closed, _, es', hd₃, rfl⟩
    · unfold IdentifyCourse.Ends
      split at hends
      next hdone =>
        obtain ⟨hprints, htrace₂, hnamed, hresult₂⟩ := hends
        simp only [if_pos hdone]
        refine ⟨⟨prints, ?_, ?_⟩, ?_, ?_⟩
        · -- the prints, the calls and the user are those of the world before the open
          rw [← hprints]
          simp only [createPrints, BioDev.query, hconfig.uuidOf, hconfig.aesKey, hstore,
            hconfig.biotype, hconfig.deviceName]
        · rw [htrace₃, htrace₂, htrace]
          simp
        · unfold reportsUid at hnamed ⊢
          rwa [reportUid_config hconfig hstore] at hnamed
        · rw [hresult₃, hresult₂]
          cases closed <;> rfl
      next hdone => simpa only [if_neg hdone] using hends
  · -- open has failed, and nobody is named
    rw [if_neg hr] at hop
    obtain ⟨rfl, rfl, rfl⟩ := hop
    have hopened' : opened ≠ .done := fun hdone => hr (hopened.mp hdone)
    obtain ⟨closed, c₃, hc₃, -⟩ := communityOpsClose_course henable₁ hshows₁ hclose
    have hd₃ := poll_openPoller_reports ([] : List (MatchReport π)) (.inr rfl) hc₃
    refine ⟨.notOpened, ⟨c₃, []⟩, ?_, rfl⟩
    simp only [identifyCourse, Proc.modify_bind]
    refine Proc.bind_eq_ret.mpr ⟨opened, _, es₂, hd₁, ?_⟩
    rw [if_neg hopened']
    simp only [Proc.modify_bind]
    exact Proc.bind_eq_ret.mpr ⟨closed, _, es', hd₃, rfl⟩

end IdentifyRequest

end BiometricAuth
