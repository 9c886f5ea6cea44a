import BiometricAuth.Daemon.Handlers
import BiometricAuth.Driver.Budget
import BiometricAuth.Driver.Enroll
import BiometricAuth.Driver.Verify

/-!
# Requests one after the other

What the replies of Enroll and Verify say when each request on the device replies
before the next one starts.

Main results:

* `along_noFalseAccept`: in a run of requests, a Verify that replies with success
  was accepted by libfprint in that same request;
* `enroll_truthful_iff`: an Enroll replies with success exactly if it inserted the
  row, and leaves the table alone otherwise, if and only if its course is honest.
-/

namespace BiometricAuth

open Process World

section Sequential

variable {π : Type} {fp : Libfprint π} {w w' : World π} {es es' : List (List (Event π))}
  {replies : List Reply}

/-- A request that got the device: its operation has returned, and the reply is made of
its value and of the result on the device. -/
theorem serve_admitted_eq_ret {request : Request} :
    request.serve fp .admitted w es = .ret replies w' es' ↔
      ∃ value, request.run fp w es = .ret value w' es' ∧
        replies = request.replies value w'.dev.opsResult := by
  rw [Request.serve, Proc.bind_eq_ret]
  constructor
  · rintro ⟨value, w₁, es₁, hrun, hreplies⟩
    cases hreplies
    exact ⟨value, hrun, rfl⟩
  · rintro ⟨value, hrun, rfl⟩
    exact ⟨value, w', es', hrun, rfl⟩

/-- A request that did not get the device changes nothing and replies with an error. -/
theorem serve_refused {request : Request} {admission : Admission} (hne : admission ≠ .admitted)
    (h : request.serve fp admission w es = .ret replies w' es') :
    w' = w ∧ ∃ reply, replies = [reply] ∧
      (admission = .permissionDenied ∧ reply = .code (-retPermissionDenied) ∨
        admission = .noSuchDevice ∧ reply = request.refused retNoSuchDevice ∨
        admission = .deviceBusy ∧ reply = request.refused retDeviceBusy) := by
  cases admission with
  | admitted => exact absurd rfl hne
  | permissionDenied | noSuchDevice | deviceBusy =>
    obtain ⟨rfl, rfl, -⟩ := Proc.pure_eq_ret.mp h
    exact ⟨rfl, _, rfl, by simp⟩

/-! ### Verify -/

/-- A Verify replies with success only if the result is a match. -/
theorem matchCode_eq_success {matched noMatch opsResult : ℤ}
    (h : Request.matchCode matched noMatch opsResult = -retOpsSuccess) : opsResult = matched := by
  unfold Request.matchCode at h
  split at h
  next hm => exact hm
  next =>
    split at h
    · exact absurd h (by decide)
    · exact absurd h (by decide)

/-- If the request is a Verify that replies with success, libfprint has accepted a template
of the user's while it ran. -/
def NoFalseAccept (fp : Libfprint π) (w : World π) (s : Served π) : Prop :=
  ∀ uid idx replies w' es', s.request = .verify uid idx → 0 ≤ uid → 0 ≤ idx →
    s.request.serve fp s.admission w s.schedule = .ret replies w' es' →
    Reply.code (-retOpsSuccess) ∈ replies →
    ∃ calls, w'.trace = w.trace ++ calls ∧ VerifyAccepted fp w uid idx calls

/-- **No false accept.** In every run of requests, whatever libfprint and the users do. -/
theorem along_noFalseAccept (fp : Libfprint π) (w₀ : World π) (history : List (Served π)) :
    Machine.Along (serveStep fp) (NoFalseAccept fp) w₀ history := by
  refine Machine.along_of_forall ?_ w₀ history
  rintro w ⟨request, admission, es⟩ uid idx replies w' es' rfl huid hidx hserve hsuccess
  by_cases hadmission : admission = .admitted
  · subst hadmission
    obtain ⟨value, hverify, rfl⟩ := serve_admitted_eq_ret.mp hserve
    obtain ⟨r, hverify, -⟩ := Proc.map_eq_ret.mp hverify
    have hcode : Request.matchCode opsVerifyMatch opsVerifyNoMatch w'.dev.opsResult =
        -retOpsSuccess := by
      simp only [Request.replies, List.mem_singleton, Reply.code.injEq] at hsuccess
      exact hsuccess.symm
    exact bioOpsVerify_spec huid hidx hverify (matchCode_eq_success hcode)
  · obtain ⟨-, reply, rfl, hreply⟩ := serve_refused hadmission hserve
    rcases hreply with ⟨-, rfl⟩ | ⟨-, rfl⟩ | ⟨-, rfl⟩ <;>
      exact absurd hsuccess (by simp [Request.refused])

/-- Enrolled in one request, accepted in the next. -/
example : ((serveStep bytesLibfprint idleWorld ⟨.enroll 1000 0 "a", .admitted,
      [[.deviceOpened true], [.enrollCompleted (.print [1, 2, 3])], [.deviceClosed]]⟩).bind
    fun w => ((Request.verify 1000 0).serve bytesLibfprint .admitted w
      [[.deviceOpened true], [.matchReport (.matched [1, 2, 3]), .verifyCompleted],
        [.deviceClosed]]).result).map Prod.fst = some [.code 0] := by
  decide +kernel

/-! ### Enroll -/

/-- The row an Enroll is to insert is the last one of the table, and nothing else is new. -/
def Inserted (w w' : World π) (uid idx : ℤ) (idxName : String) : Prop :=
  ∃ row, w'.store.db.rows = w.store.db.rows ++ [row] ∧ row.uid = uid ∧
    row.bioType = w.dev.biotype.code ∧ row.driver = w.dev.deviceName ∧
    (idx ≠ -1 → row.eigenIndex = idx) ∧ row.eigenIndexName = idxName

/-- An index that was asked for is the one that is used. -/
theorem enrollIndex_eq {uuidOf : ℤ → String} {db : EigenInfo} {dev : BioDev} {uid idx idx' : ℤ}
    (h : enrollIndex uuidOf db dev uid idx = some idx') (hidx : idx ≠ -1) : idx' = idx := by
  rw [enrollIndex, if_neg hidx] at h
  exact (Option.some.inj h).symm

/-- A print that was to be written is inserted if the writes succeed, and otherwise the table
is as it was. -/
theorem Stored.db_cases {enrollData : EnrollData} {store : Store}
    (h : Stored w enrollData store) :
    (w.store.inserts = true ∧ ∃ sampleNo eigenData, store.db = w.store.db.insert enrollData.uid
        (if enrollData.uid = -1 then "" else w.uuidOf enrollData.uid) w.dev.biotype.code
        w.dev.deviceName enrollData.idx enrollData.bioIdxName sampleNo eigenData) ∨
      w.store.inserts = false ∧ store.db = w.store.db := by
  obtain ⟨ret, data, hwrite⟩ := h
  rcases storeTemplate_cases hwrite with ⟨hinserts, -, text, -, hdb⟩ | ⟨hinserts, -, hdb⟩
  · exact Or.inl ⟨hinserts, _, text, hdb⟩
  · exact Or.inr ⟨hinserts, hdb⟩

/-- The same in terms of the rows. -/
theorem Stored.cases {enrollData : EnrollData} {store : Store}
    (h : Stored w enrollData store) :
    (w.store.inserts = true ∧ ∃ row, store.db.rows = w.store.db.rows ++ [row] ∧
        row.uid = enrollData.uid ∧ row.bioType = w.dev.biotype.code ∧
        row.driver = w.dev.deviceName ∧ row.eigenIndex = enrollData.idx ∧
        row.eigenIndexName = enrollData.bioIdxName) ∨
      w.store.inserts = false ∧ store.db = w.store.db := by
  refine h.db_cases.imp_left ?_
  rintro ⟨hinserts, sampleNo, eigenData, hdb⟩
  rw [hdb]
  exact ⟨hinserts, _, rfl, rfl, rfl, rfl, rfl, rfl⟩

/-- The reply tells the truth: it is a success exactly if the row was inserted, and otherwise
the table is as it was. -/
def Truthful (w w' : World π) (uid idx : ℤ) (idxName : String) (replies : List Reply) : Prop :=
  (Reply.code (-retOpsSuccess) ∈ replies ↔ Inserted w w' uid idx idxName) ∧
    (Reply.code (-retOpsSuccess) ∉ replies → w'.store.db = w.store.db)

/-- Nothing is inserted where the table is as it was. -/
theorem not_inserted {uid idx : ℤ} {idxName : String} (h : w'.store.db = w.store.db) :
    ¬ Inserted w w' uid idx idxName := by
  rintro ⟨row, hrows, -⟩
  rw [h] at hrows
  simpa using congrArg List.length hrows

/-- An Enroll that the device refused, or never saw, tells the truth. -/
theorem truthful_of_error {uid idx : ℤ} {idxName : String}
    (hreply : Reply.code (-retOpsSuccess) ∉ replies) (h : w'.store.db = w.store.db) :
    Truthful w w' uid idx idxName replies :=
  ⟨iff_of_false hreply (not_inserted h), fun _ => h⟩

/-- What an Enroll does under the mutex. -/
theorem run_enroll_eq_ret {uid idx : ℤ} {idxName : String} {value : OpValue}
    (h : (Request.enroll uid idx idxName).run fp w es = .ret value w' es') :
    ∃ idx₁ r, enrollIndex w.uuidOf w.store.db w.dev uid idx = some idx₁ ∧
      bioOpsEnroll fp uid idx₁ idxName w es = .ret r w' es' := by
  simp only [Request.run, Proc.get_bind] at h
  obtain ⟨idx₁, w₁, es₁, hidx, henroll⟩ := Proc.bind_eq_ret.mp h
  obtain ⟨hidx, hw, hes⟩ := Proc.ofOption_eq_ret.mp hidx
  rw [hw, hes] at henroll
  obtain ⟨r, henroll, -⟩ := Proc.map_eq_ret.mp henroll
  exact ⟨idx₁, r, hidx, henroll⟩

section Course

variable {course : EnrollCourse} {uid idx idx₁ : ℤ} {idxName : String}
  (hprints : course.Prints → ∃ idx', enrollIndex w.uuidOf w.store.db w.dev uid idx₁ = some idx' ∧
    Stored w ⟨uid, idx', idxName⟩ w'.store)
  (hnone : ¬ course.Prints → w'.store = w.store)

include hprints hnone

/-- The row is there exactly if the callback was reached and its writes succeeded. -/
theorem inserted_iff (hidx₁ : enrollIndex w.uuidOf w.store.db w.dev uid idx = some idx₁) :
    Inserted w w' uid idx idxName ↔ course.Prints ∧ w.store.inserts = true := by
  by_cases hcourse : course.Prints
  · obtain ⟨idx', hidx', hstored⟩ := hprints hcourse
    rcases hstored.cases with ⟨hinserts, row, hrows, huid, hbio, hdriver, hindex, hname⟩ |
      ⟨hinserts, hdb⟩
    · refine iff_of_true ⟨row, hrows, huid, hbio, hdriver, fun hidx => ?_, hname⟩
        ⟨hcourse, hinserts⟩
      have hidx₁ := enrollIndex_eq hidx₁ hidx
      exact hindex.trans ((enrollIndex_eq hidx' (hidx₁ ▸ hidx)).trans hidx₁)
    · exact iff_of_false (not_inserted hdb) fun h => by simp [hinserts] at h
  · refine iff_of_false (not_inserted ?_) fun h => hcourse h.1
    rw [hnone hcourse]

/-- Otherwise the table is as it was. -/
theorem db_eq_of_not_inserted (h : ¬ (course.Prints ∧ w.store.inserts = true)) :
    w'.store.db = w.store.db := by
  by_cases hcourse : course.Prints
  · obtain ⟨idx', -, hstored⟩ := hprints hcourse
    rcases hstored.cases with ⟨hinserts, -⟩ | ⟨-, hdb⟩
    · exact absurd ⟨hcourse, hinserts⟩ h
    · exact hdb
  · rw [hnone hcourse]

end Course

/-- **When an Enroll tells the truth.** Of all Enroll requests that are replied to, the
dishonest ones are those that were admitted on an enabled device and took a course on which
the last word about the result is not had by the callback that writes the print. -/
theorem enroll_truthful_iff {uid idx : ℤ} {idxName : String} {admission : Admission}
    (h : (Request.enroll uid idx idxName).serve fp admission w es = .ret replies w' es') :
    Truthful w w' uid idx idxName replies ↔
      (admission = .admitted → w.dev.enable = true → ∀ course c' es'',
        enrollCourse w.clock es = .ret course c' es'' → course.Honest w.store.inserts) := by
  by_cases hadmission : admission = .admitted
  · subst hadmission
    obtain ⟨value, hrun, rfl⟩ := serve_admitted_eq_ret.mp h
    obtain ⟨idx₁, r, hidx₁, henroll⟩ := run_enroll_eq_ret hrun
    -- the reply is a success exactly if the result of the device is one
    have hreply : Reply.code (-retOpsSuccess) ∈ (Request.enroll uid idx idxName).replies value
        w'.dev.opsResult ↔ w'.dev.opsResult.tmod 100 = opsCommSuccess := by
      rw [← Request.commonCode_eq_success, eq_comm]
      simp [Request.replies]
    cases henable : w.dev.enable with
    | false =>
      -- the operation says so itself
      simp only [bioOpsEnroll, bioOps, Proc.get_bind, henable, if_true, Proc.modify_bind] at henroll
      cases henroll
      refine iff_of_true (truthful_of_error ?_ rfl) (by simp)
      rw [hreply]
      simp [BioDev.setOpsResult, BioDev.setDevStatus, BioDev.setNotifyMid]
    | true =>
      obtain ⟨course, c', hcourse, hstops, hsucceeds, hprints, hnone⟩ :=
        bioOpsEnroll_course henable henroll
      -- the request has one course
      have hhonest : (Admission.admitted = .admitted → true = true → ∀ course c' es'',
          enrollCourse w.clock es = .ret course c' es'' → course.Honest w.store.inserts) ↔
          course.Honest w.store.inserts := by
        refine ⟨fun h => h rfl rfl course c' es' hcourse, fun h _ _ course' c'' es'' hcourse' => ?_⟩
        obtain ⟨rfl, -, -⟩ := Outcome.ret.inj (hcourse.symm.trans hcourse')
        exact h
      rw [hhonest, EnrollCourse.honest_iff hstops, ← hsucceeds, ← hreply, Truthful,
        inserted_iff hprints hnone hidx₁]
      -- the reply and the insertion agree: without an insertion the table is as it was
      constructor
      · exact fun h => h.1
      · intro h
        refine ⟨h, fun hnot => ?_⟩
        exact db_eq_of_not_inserted hprints hnone fun hins => hnot (h.mpr hins)
  · -- a refused request replies an error, and does nothing
    obtain ⟨rfl, reply, rfl, hreply⟩ := serve_refused hadmission h
    refine iff_of_true (truthful_of_error ?_ rfl) fun hadmitted => absurd hadmitted hadmission
    rcases hreply with ⟨-, rfl⟩ | ⟨-, rfl⟩ | ⟨-, rfl⟩ <;> simp [Request.refused]

end Sequential

/-- libfprint reports that the enroll failed; the reply is a success all the same. -/
theorem not_truthful_enrollError :
    ∃ w' es', (Request.enroll 1000 0 "a").serve bytesLibfprint .admitted idleWorld
        [[.deviceOpened true], [.enrollCompleted .error], [.deviceClosed]] =
          .ret [.code 0] w' es' ∧
      w'.store.db.rows = idleWorld.store.db.rows ∧
      ¬ Truthful idleWorld w' 1000 0 "a" [.code 0] := by
  refine ⟨_, _, rfl, rfl, ?_⟩
  rintro ⟨hsuccess, -⟩
  exact not_inserted rfl (hsuccess.mp (by simp))

/-- The print arrives in the second interval and is stored. -/
theorem enroll_truthful_print :
    ∃ w' es', (Request.enroll 1000 0 "a").serve bytesLibfprint .admitted idleWorld
        [[.deviceOpened true], [], [], [.enrollCompleted (.print [1, 2, 3])], [.deviceClosed]] =
          .ret [.code 0] w' es' ∧ Truthful idleWorld w' 1000 0 "a" [.code 0] := by
  have hreply : ((Request.enroll 1000 0 "a").serve bytesLibfprint .admitted idleWorld
      [[.deviceOpened true], [], [], [.enrollCompleted (.print [1, 2, 3])],
        [.deviceClosed]]).result.map Prod.fst = some [.code 0] := by decide +kernel
  obtain ⟨⟨replies, w'⟩, hresult, rfl⟩ := Option.map_eq_some_iff.mp hreply
  obtain ⟨es', h⟩ := Outcome.result_eq_some.mp hresult
  refine ⟨w', es', h, (enroll_truthful_iff h).mpr fun _ _ course c' es'' hcourse => ?_⟩
  cases hcourse
  exact ⟨Or.inl rfl, rfl⟩

end BiometricAuth
