import BiometricAuth.Daemon.Sequential
import BiometricAuth.Driver.Identify

/-!
# Whom an Identify names

The reply to an Identify names a user by a uid that is not negative. It is to do so only with a
success, after a match report, and with a row of that user's that holds an equal template
(`NamesRecognised`).

`IdentifyCourse.Honest` says on which courses of a request this is so: a request for one user is
answered with that user unless the loop is left early, so there has to be a match, it has to have
the last word, and close has to be answered; a request for all users names the one the equal sample
is filed under.

Main result: `identify_namesRecognised_iff`.
-/

namespace BiometricAuth

open Process World

section Recognition

variable {π : Type} {fp : Libfprint π} {w w' : World π} {es es' : List (List (Event π))}
  {uid idxStart idxEnd named : ℤ} {reports : List (MatchReport π)} {calls : List (FpCall π)}
  {print : π}

/-- A row of the user's, of the user, the device and the indices asked for, with a template that is
equal to `print`. -/
def OwnRow (fp : Libfprint π) (w : World π) (uid idxStart idxEnd : ℤ) (print : π) (named : ℤ) :
    Prop :=
  ∃ r ∈ w.store.db.rows, r.uid = named ∧ (w.dev.query uid idxStart idxEnd).selects r = true ∧
    sampleEqual fp w.priv.aesKey print r.toSample = some true

/-- Every user that is named was recognised. -/
def NamesRecognised (fp : Libfprint π) (w : World π) (uid idxStart idxEnd : ℤ)
    (calls : List (FpCall π)) (replies : List Reply) : Prop :=
  ∀ ret named, .identify ret named ∈ replies → 0 ≤ named → ret = -retOpsSuccess ∧
    ∃ print, .onMatchCbIdentify (.matched print) ∈ calls ∧
      OwnRow fp w uid idxStart idxEnd print named

/-- The courses after which a reply names nobody, or a user that was recognised. -/
def IdentifyCourse.Honest (fp : Libfprint π) (w : World π) (uid idxStart idxEnd : ℤ) :
    IdentifyCourse π → Prop
  | .notOpened => True
  | .opened reports exit closed => exit = .done →
    -- the user asked for is named whatever is reported
    (0 ≤ uid → verdict reports = some true ∧ closed = true) ∧
    -- of all users, the one the equal sample is filed under
    (uid = -1 → ∀ named, reportsUid fp w idxStart idxEnd uid reports = some named → 0 ≤ named →
      verdict reports = some true ∧ closed = true ∧
        ∃ print, .matched print ∈ reports ∧ OwnRow fp w uid idxStart idxEnd print named)

/-- The print an identification is told to match. -/
def FpCall.matchedPrint? : FpCall π → Option π
  | .onMatchCbIdentify (.matched print) => some print
  | _ => none

/-- libfprint reports matches with the prints it was given. -/
def MatchesGallery (fp : Libfprint π) (w : World π) (uid idxStart idxEnd : ℤ)
    (calls : List (FpCall π)) : Prop :=
  ∀ print, .onMatchCbIdentify (.matched print) ∈ calls → ∀ prints,
    createPrints fp.deserialize w.uuidOf w.priv.aesKey w.store.db w.dev uid idxStart idxEnd =
      some prints → some print ∈ prints

/-! ### A request for one user -/

/-- The callback names a user of the list, or nobody else than before. -/
theorem identifyUid_cases {key : Bytes} {infos : List FeatureInfo}
    (h : identifyUid fp key print infos uid = some named) :
    named = uid ∨ ∃ info ∈ infos, named = info.uid := by
  -- the samples of the list are gone through in its order, and the uid of the last match is kept
  have hentries : ∀ (entries : List (ℤ × FeatureSample)) (uid : ℤ),
      entries.foldlM (fun uid entry => (sampleEqual fp key print entry.2).map fun equal =>
        if equal then entry.1 else uid) uid = some named →
      named = uid ∨ ∃ entry ∈ entries, named = entry.1 := by
    intro entries
    induction entries with
    | nil => exact fun uid h => .inl (Option.some.inj h).symm
    | cons entry entries ih =>
      intro uid h
      rw [List.foldlM_cons] at h
      obtain ⟨uid₁, huid₁, h⟩ := Option.bind_eq_some_iff.mp h
      obtain ⟨equal, -, rfl⟩ := Option.map_eq_some_iff.mp huid₁
      -- a later match wins over this one
      rcases ih _ h with hsame | ⟨later, hlater, hnamed⟩
      · cases equal with
        | false => exact .inl hsame
        | true => exact .inr ⟨entry, by simp, hsame⟩
      · exact .inr ⟨later, List.mem_cons_of_mem _ hlater, hnamed⟩
  rcases hentries _ _ h with hsame | ⟨entry, hentry, hnamed⟩
  · exact .inl hsame
  · -- the sample belongs to a feature of the list
    obtain ⟨info, hinfo, hsample⟩ := List.mem_flatMap.mp hentry
    obtain ⟨sample, -, rfl⟩ := List.mem_map.mp hsample
    exact .inr ⟨info, hinfo, hnamed⟩

/-- Whatever is reported, the user asked for is named. -/
theorem reportsUid_eq (huid : uid ≠ -1)
    (h : reportsUid fp w idxStart idxEnd uid reports = some named) : named = uid := by
  have hreport : ∀ report uid', reportUid fp w idxStart idxEnd uid report = some uid' →
      uid' = uid := by
    intro report uid' h
    cases report with
    | error | noMatch => exact (Option.some.inj h).symm
    | matched print =>
      obtain ⟨infos, hinfos, h⟩ := Option.bind_eq_some_iff.mp h
      rcases identifyUid_cases h with hsame | ⟨info, hinfo, hsame⟩
      · exact hsame
      · -- a feature of the list is one of that user
        obtain ⟨r, -, hselects, -, hheader⟩ := exists_row_of_mem_features hinfos hinfo
        rw [hsame, hheader]
        exact (FeatureQuery.columns_uid huid).trans
          ((FeatureQuery.selects_iff.mp hselects).2.1.resolve_left huid)
  induction reports with
  | nil => exact (Option.some.inj h).symm
  | cons report reports ih =>
    rw [reportsUid, List.foldlM_cons] at h
    obtain ⟨uid₁, huid₁, hrest⟩ := Option.bind_eq_some_iff.mp h
    rw [hreport report uid₁ huid₁] at hrest
    exact ih hrest

/-- And he has a row with the template that was matched. -/
theorem ownRow_of_gallery (hequal : ∀ print, fp.equal print print = true) (huid : uid ≠ -1)
    {prints : List (Option π)}
    (hprints : createPrints fp.deserialize w.uuidOf w.priv.aesKey w.store.db w.dev uid idxStart
      idxEnd = some prints) (hprint : some print ∈ prints) :
    OwnRow fp w uid idxStart idxEnd print uid := by
  obtain ⟨infos, hinfos, info, hinfo, sample, hsample, hsame⟩ :=
    exists_equal_of_gallery hequal hprints hprint
  obtain ⟨r, hr, hselects, -, rfl⟩ := exists_row_of_mem_samples huid w.dev.biotype.code_nonneg
    (listFeatureInfo_eq_some_iff.mp hinfos).1 hinfo hsample
  have hruid := (FeatureQuery.selects_iff.mp hselects).2.1.resolve_left huid
  exact ⟨r, hr, hruid, hselects, hsame⟩

/-! ### The reply -/

/-- The code is a success after a match that close has left in place. -/
theorem matchCode_verdict {verdict : Option Bool} {closed : Bool} :
    Request.matchCode opsIdentifyMatch opsIdentifyNoMatch
        (if closed then verdictResult verdict else opsCloseFail) = -retOpsSuccess ↔
      verdict = some true ∧ closed = true := by
  cases closed <;> rcases verdict with _ | _ | _ <;> decide

/-- By the course of the request. -/
theorem namesRecognised_iff_honest (hequal : ∀ print, fp.equal print print = true)
    (hcalls : w'.trace = w.trace ++ calls)
    (hgallery : MatchesGallery fp w uid idxStart idxEnd calls)
    {course : IdentifyCourse π} (hends : course.Ends fp w w' uid idxStart idxEnd named) :
    NamesRecognised fp w uid idxStart idxEnd calls
        [.identify (Request.matchCode opsIdentifyMatch opsIdentifyNoMatch w'.dev.opsResult) named] ↔
      course.Honest fp w uid idxStart idxEnd := by
  -- a reply without a user asserts nothing
  have hnobody : named = -1 → NamesRecognised fp w uid idxStart idxEnd calls
      [.identify (Request.matchCode opsIdentifyMatch opsIdentifyNoMatch w'.dev.opsResult)
        named] := by
    rintro rfl ret named hreply hnamed
    obtain ⟨rfl, rfl⟩ : _ = _ ∧ named = -1 := by simpa using hreply
    omega
  cases course with
  | notOpened => exact iff_of_true (hnobody hends) trivial
  | opened reports exit closed =>
    -- the device was opened: the driver reports what libfprint has told it
    by_cases hdone : exit = .done
    · simp only [IdentifyCourse.Ends, if_pos hdone] at hends
      obtain ⟨⟨prints, hprints, htrace⟩, hreports, hresult⟩ := hends
      -- the calls of the request are the reports of its course
      have hmatched : ∀ print, .onMatchCbIdentify (.matched print) ∈ calls ↔
          .matched print ∈ reports := by
        intro print
        rw [List.append_cancel_left (hcalls.symm.trans htrace)]
        simp
      -- so the reply asserts a verdict, a close that has succeeded, and a print of the user named
      have hreply : NamesRecognised fp w uid idxStart idxEnd calls
          [.identify (Request.matchCode opsIdentifyMatch opsIdentifyNoMatch w'.dev.opsResult)
            named] ↔ (0 ≤ named → verdict reports = some true ∧ closed = true ∧
              ∃ print, .matched print ∈ reports ∧ OwnRow fp w uid idxStart idxEnd print named) := by
        simp only [NamesRecognised, List.mem_singleton, Reply.identify.injEq, hresult, hmatched]
        constructor
        · intro h hnamed
          obtain ⟨hcode, hrow⟩ := h _ _ ⟨rfl, rfl⟩ hnamed
          obtain ⟨hverdict, hclosed⟩ := matchCode_verdict.mp hcode
          exact ⟨hverdict, hclosed, hrow⟩
        · rintro h ret named ⟨rfl, rfl⟩ hnamed
          obtain ⟨hverdict, hclosed, hrow⟩ := h hnamed
          exact ⟨matchCode_verdict.mpr ⟨hverdict, hclosed⟩, hrow⟩
      rw [hreply, IdentifyCourse.Honest]
      -- all users were asked for: the user named is the one of the print
      by_cases huid : uid = -1
      · subst huid
        constructor
        · intro h _
          refine ⟨fun hneg => by omega, fun _ named' hreports' => ?_⟩
          obtain rfl := Option.some.inj (hreports.symm.trans hreports')
          exact h
        · exact fun h => (h hdone).2 rfl named hreports
      · -- one user was asked for: it is the one named, and his prints are those libfprint was given
        obtain rfl := reportsUid_eq huid hreports
        constructor
        · intro h _
          refine ⟨fun hnamed => ?_, fun hall => absurd hall huid⟩
          obtain ⟨hverdict, hclosed, -⟩ := h hnamed
          exact ⟨hverdict, hclosed⟩
        · intro h hnamed
          obtain ⟨hverdict, hclosed⟩ := (h hdone).1 hnamed
          obtain ⟨print, hprint⟩ := exists_matched_of_verdict hverdict
          have hgiven := hgallery print ((hmatched print).mpr hprint) prints hprints
          exact ⟨hverdict, hclosed, print, hprint, ownRow_of_gallery hequal huid hprints hgiven⟩
    · -- an identification that is stopped or times out names nobody
      simp only [IdentifyCourse.Ends, if_neg hdone] at hends
      exact iff_of_true (hnobody hends) fun h => absurd h hdone

/-- **When an Identify names only whom it recognised.** Of all Identify requests that are replied
to, the others are those that were admitted on an enabled device and took a course that is not
honest. -/
theorem identify_namesRecognised_iff (hequal : ∀ print, fp.equal print print = true)
    {admission : Admission} {replies : List Reply}
    (h : (Request.identify uid idxStart idxEnd).serve fp admission w es = .ret replies w' es')
    (hcalls : w'.trace = w.trace ++ calls)
    (hgallery : MatchesGallery fp w uid idxStart idxEnd calls) :
    NamesRecognised fp w uid idxStart idxEnd calls replies ↔
      (admission = .admitted → w.dev.enable = true → ∀ course c' es'',
        identifyCourse ⟨w.clock, []⟩ es = .ret course c' es'' →
          course.Honest fp w uid idxStart idxEnd) := by
  by_cases hadmission : admission = .admitted
  · subst hadmission
    obtain ⟨value, hrun, rfl⟩ := serve_admitted_eq_ret.mp h
    obtain ⟨named, hidentify, rfl⟩ := Proc.map_eq_ret.mp hrun
    cases henable : w.dev.enable with
    | false =>
      -- a disabled device names nobody
      simp only [bioOpsIdentify, bioOps, Proc.get_bind, henable, if_true, Proc.modify_bind]
        at hidentify
      cases hidentify
      refine iff_of_true ?_ (by simp)
      rintro ret named hreply hnamed
      obtain ⟨-, rfl⟩ : _ ∧ named = -1 := by simpa [Request.replies] using hreply
      omega
    | true =>
      -- the request has one course, as it is a function of the schedule
      obtain ⟨course, c', hcourse, hends⟩ := bioOpsIdentify_course henable hidentify
      refine (namesRecognised_iff_honest hequal hcalls hgallery hends).trans ?_
      refine ⟨fun h _ _ course' c'' es'' hcourse' => ?_, fun h => h rfl rfl course c' es' hcourse⟩
      obtain ⟨rfl, -, -⟩ := Outcome.ret.inj (hcourse.symm.trans hcourse')
      exact h
  · -- a refused request names nobody
    obtain ⟨rfl, reply, rfl, hreply⟩ := serve_refused hadmission h
    refine iff_of_true ?_ fun hadmitted => absurd hadmitted hadmission
    intro ret named hmem hnamed
    rcases hreply with ⟨-, rfl⟩ | ⟨-, rfl⟩ | ⟨-, rfl⟩
    · simp at hmem
    all_goals
      obtain ⟨-, rfl⟩ : _ ∧ named = -1 := by simpa [Request.refused] using hmem
      omega

end Recognition

/-- libfprint finds no match; the reply names the user that was asked for. -/
theorem not_namesRecognised_noMatch :
    ∃ replies w' es', (Request.identify 1000 0 (-1)).serve bytesLibfprint .admitted enrolledWorld
        [[.deviceOpened true], [.matchReport .noMatch, .deviceIdentified], [.deviceClosed]] =
          .ret replies w' es' ∧
      ¬ NamesRecognised bytesLibfprint enrolledWorld 1000 0 (-1) w'.trace replies := by
  have hrun : ((Request.identify 1000 0 (-1)).serve bytesLibfprint .admitted enrolledWorld
      [[.deviceOpened true], [.matchReport .noMatch, .deviceIdentified],
        [.deviceClosed]]).result.map Prod.fst = some [.identify (-retOpsNoMatch) 1000] := by
    decide +kernel
  obtain ⟨⟨replies, w'⟩, hresult, rfl⟩ := Option.map_eq_some_iff.mp hrun
  obtain ⟨es', h⟩ := Outcome.result_eq_some.mp hresult
  refine ⟨_, w', es', h, fun hnames => ?_⟩
  obtain ⟨hcode, -⟩ := hnames (-retOpsNoMatch) 1000 (by simp) (by decide)
  exact absurd hcode (by decide)

/-- libfprint finds the print of the user. -/
theorem identify_namesRecognised_match :
    ∃ w' es', (Request.identify 1000 0 (-1)).serve bytesLibfprint .admitted enrolledWorld
        [[.deviceOpened true], [.matchReport (.matched [1, 2, 3]), .deviceIdentified],
          [.deviceClosed]] = .ret [.identify (-retOpsSuccess) 1000] w' es' ∧
      NamesRecognised bytesLibfprint enrolledWorld 1000 0 (-1) w'.trace
        [.identify (-retOpsSuccess) 1000] := by
  have hrun : ((Request.identify 1000 0 (-1)).serve bytesLibfprint .admitted enrolledWorld
      [[.deviceOpened true], [.matchReport (.matched [1, 2, 3]), .deviceIdentified],
        [.deviceClosed]]).result.map
          (fun r => (r.1, r.2.trace.filterMap FpCall.matchedPrint?)) =
        some ([.identify (-retOpsSuccess) 1000], [[1, 2, 3]]) := by
    decide +kernel
  obtain ⟨⟨replies, w'⟩, hresult, hrest⟩ := Option.map_eq_some_iff.mp hrun
  obtain ⟨es', h⟩ := Outcome.result_eq_some.mp hresult
  obtain ⟨rfl, htrace⟩ := Prod.mk.inj hrest
  refine ⟨w', es', h, ?_⟩
  refine (identify_namesRecognised_iff (fun print => beq_self_eq_true print) h
    (List.nil_append _).symm ?_).mpr ?_
  · -- the only print in the gallery is the one that is matched
    intro print hprint prints hprints
    have hmem : print ∈ [[1, 2, 3]] := by
      rw [← htrace]
      exact List.mem_filterMap.mpr ⟨_, hprint, rfl⟩
    have hgallery : createPrints bytesLibfprint.deserialize enrolledWorld.uuidOf
        enrolledWorld.priv.aesKey enrolledWorld.store.db enrolledWorld.dev 1000 0 (-1) =
          some [some [1, 2, 3]] := by decide +kernel
    obtain rfl := Option.some.inj (hgallery.symm.trans hprints)
    rw [List.mem_singleton.mp hmem]
    exact List.mem_singleton_self _
  · intro _ _ course c' es'' hcourse
    cases hcourse
    exact fun _ => ⟨fun _ => ⟨rfl, rfl⟩, fun hall => absurd hall (by decide)⟩

end BiometricAuth
