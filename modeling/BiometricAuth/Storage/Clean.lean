import BiometricAuth.Storage.Writer

/-!
# Cleaning what is listed

`bio_sto_clean_feature_info` and `bio_sto_get_feature_info` take the same arguments and put
their conditions together from the same fragments. Both documentations name one wildcard for
the driver, `NULL`. The reader tests for it with `driver != NULL`, the cleaning function with
`driver != NULL && driver[0] != '\0'`: for the empty string it leaves the condition out and
deletes the rows of all drivers, where the reader lists those whose `Driver` is empty.

Main result: `bioStoCleanFeatureInfo_cleansSelected_iff` — when a clean deletes what the
reader selects.
-/

namespace BiometricAuth

/-! ### What the two filters select -/

/-- For any driver but the empty string the two filters are one. -/
theorem FeatureQuery.deletes_of_ne {q : FeatureQuery} (hdriver : q.driver ≠ some "") :
    q.deletes = q.selects := by
  have hfilter : q.driver.filter (fun d => d ≠ "") = q.driver := by
    cases h : q.driver with
    | none => rfl
    | some d =>
      have hne : d ≠ "" := fun hd => hdriver (h.trans (congrArg some hd))
      rw [Option.filter_some, if_pos (decide_eq_true hne)]
  ext r
  unfold FeatureQuery.deletes
  rw [hfilter]

/-- For the empty string the cleaning function asks for every driver. -/
theorem FeatureQuery.deletes_of_empty {q : FeatureQuery} (hdriver : q.driver = some "") :
    q.deletes = { q with driver := none }.selects := by
  ext r
  unfold FeatureQuery.deletes
  rw [hdriver]
  rfl

/-- The condition on the driver is the only one the two queries differ in. -/
theorem FeatureQuery.selects_some {q : FeatureQuery} {d : String} (hdriver : q.driver = some d)
    (r : EigenRow) :
    q.selects r = true ↔ { q with driver := none }.selects r = true ∧ r.driver = d := by
  rw [FeatureQuery.selects_iff, FeatureQuery.selects_iff, hdriver]
  constructor
  · rintro ⟨hstart, huid, hbio, hd, hend⟩
    refine ⟨⟨hstart, huid, hbio, fun d' hd' => ?_, hend⟩, hd d rfl⟩
    cases hd'
  · rintro ⟨⟨hstart, huid, hbio, -, hend⟩, hd⟩
    refine ⟨hstart, huid, hbio, fun d' hd' => ?_, hend⟩
    rw [hd, Option.some.inj hd']

/-- The rows that all the conditions but the one on the driver select have an empty driver
name, if that is what is asked for. -/
def NoOtherDriver (db : EigenInfo) (q : FeatureQuery) : Prop :=
  q.driver = some "" → ∀ r ∈ db.rows, { q with driver := none }.selects r = true → r.driver = ""

theorem deletes_eq_selects_iff (db : EigenInfo) (q : FeatureQuery) :
    (∀ r ∈ db.rows, q.deletes r = q.selects r) ↔ NoOtherDriver db q := by
  by_cases hdriver : q.driver = some ""
  · rw [FeatureQuery.deletes_of_empty hdriver]
    constructor
    · intro h _ r hr hselects
      exact ((FeatureQuery.selects_some hdriver r).mp ((h r hr).symm.trans hselects)).2
    · intro h r hr
      rw [Bool.eq_iff_iff, FeatureQuery.selects_some hdriver]
      exact ⟨fun hselects => ⟨hselects, h hdriver r hr hselects⟩, And.left⟩
  · rw [FeatureQuery.deletes_of_ne hdriver]
    exact iff_of_true (fun r _ => rfl) fun h => absurd h hdriver

/-! ### A clean and the query after it -/

/-- What is asked of a clean: if it returns `0`, the rows the query selects are gone, all others
are as they were, and the query lists nothing; otherwise nothing has changed. Only rows of the
driver that is named go away. -/
structure CleansSelected (uuidOf : ℤ → String) (c : Store) (q : FeatureQuery) (ret : ℤ)
    (c' : Store) : Prop where
  rows : ret = 0 → c'.db.rows = c.db.rows.filter fun r => !q.selects r
  lists : ret = 0 → bioStoGetFeatureInfo uuidOf c'.db q = some []
  failed : ret ≠ 0 → c'.db = c.db
  driver : ∀ r ∈ c.db.rows, r ∉ c'.db.rows → ∀ d, q.driver = some d → r.driver = d

/-- A query that selects no row lists nothing. -/
theorem bioStoGetFeatureInfo_eq_nil (uuidOf : ℤ → String) {db : EigenInfo} {q : FeatureQuery}
    (h : ∀ r ∈ db.rows, q.selects r = false) : bioStoGetFeatureInfo uuidOf db q = some [] := by
  have hrows : selectRows db q = [] := by
    refine List.eq_nil_iff_forall_not_mem.mpr fun r hr => ?_
    obtain ⟨hmem, hselects⟩ := mem_selectRows.mp hr
    rw [h r hmem] at hselects
    cases hselects
  rw [bioStoGetFeatureInfo, hrows]
  rfl

theorem cleansSelected_of_deletes (uuidOf : ℤ → String) (c : Store) {q : FeatureQuery}
    (h : ∀ r ∈ c.db.rows, q.deletes r = q.selects r) :
    CleansSelected uuidOf c q (bioStoCleanFeatureInfo c q).1 (bioStoCleanFeatureInfo c q).2 := by
  cases bioStoCleanFeatureInfo_cases c q with
  | inl hfailed =>
    -- the `DELETE` fails: nothing is promised but the table
    obtain ⟨hret, hdb⟩ := hfailed
    refine ⟨fun h0 => ?_, fun h0 => ?_, fun _ => hdb, fun r hr hgone => ?_⟩
    · rw [hret] at h0
      cases h0
    · rw [hret] at h0
      cases h0
    · rw [hdb] at hgone
      exact absurd hr hgone
  | inr hcleaned =>
    -- the `DELETE` takes the rows that are selected
    obtain ⟨hret, hdb⟩ := hcleaned
    have hrows : (bioStoCleanFeatureInfo c q).2.db.rows =
        c.db.rows.filter fun r => !q.selects r := by
      rw [hdb]
      exact List.filter_congr fun r hr => by rw [h r hr]
    refine ⟨fun _ => hrows, fun _ => ?_, fun hne => absurd hret hne, fun r hr hgone d hd => ?_⟩
    · -- none of them is left to be listed
      refine bioStoGetFeatureInfo_eq_nil uuidOf fun r hr => ?_
      rw [hrows] at hr
      simpa using (List.mem_filter.mp hr).2
    · rw [hrows, List.mem_filter, not_and, Bool.not_eq_true', Bool.not_eq_false] at hgone
      -- a row that is gone was one of the driver's
      exact ((FeatureQuery.selects_some hd r).mp (hgone hr)).2

/-- **Cleaning what is listed.** Whatever the SQL calls return, a clean deletes the rows that
the reader selects for the same arguments and no others, exactly if the driver is not the empty
string or the other arguments select rows with an empty driver only. -/
theorem bioStoCleanFeatureInfo_cleansSelected_iff (uuidOf : ℤ → String) (db : EigenInfo)
    (q : FeatureQuery) :
    (∀ outcomes, CleansSelected uuidOf ⟨db, outcomes⟩ q
        (bioStoCleanFeatureInfo ⟨db, outcomes⟩ q).1 (bioStoCleanFeatureInfo ⟨db, outcomes⟩ q).2) ↔
      NoOtherDriver db q := by
  rw [← deletes_eq_selects_iff]
  constructor
  · -- a clean whose calls succeed shows which rows go away
    intro h r hr
    have hrows : db.rows.filter (fun r => !q.deletes r) = db.rows.filter fun r => !q.selects r :=
      (h []).rows rfl
    have hmem := congrArg (r ∈ ·) hrows
    simp only [List.mem_filter, hr, true_and, eq_iff_iff, Bool.not_eq_true'] at hmem
    rw [Bool.eq_iff_iff, ← not_iff_not, Bool.not_eq_true, Bool.not_eq_true]
    exact hmem
  · exact fun h outcomes => cleansSelected_of_deletes uuidOf ⟨db, outcomes⟩ h

/-- Asked for the driver `""`, the function deletes the feature of another driver. -/
theorem not_bioStoCleanFeatureInfo_cleansSelected : ¬ ∀ (uuidOf : ℤ → String) (db : EigenInfo)
    (q : FeatureQuery) (outcomes : List Bool), CleansSelected uuidOf ⟨db, outcomes⟩ q
      (bioStoCleanFeatureInfo ⟨db, outcomes⟩ q).1 (bioStoCleanFeatureInfo ⟨db, outcomes⟩ q).2 := by
  intro h
  have hclean := h (fun _ => "u") (EigenInfo.empty.insert 1 "u" 0 "uru4000" 0 "a" 1 [80])
    ⟨1, 0, some "", 0, -1⟩ []
  exact absurd (hclean.rows rfl) (by decide)

end BiometricAuth
