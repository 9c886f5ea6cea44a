import BiometricAuth.Storage.UserFeatures

/-!
# Writing features

The three functions that change `EIGEN_INFO`: `bio_sto_set_feature_info` inserts
one row per sample of a list of features, `bio_sto_clean_feature_info` deletes
the rows a filter selects, and `bio_sto_update_feature_info_by_dbid` rewrites
the row of one sample.

They run on a `Store`: the table together with the outcomes of the SQL calls
still to come. A call that fails leaves the table alone; which calls fail is not
up to the framework, so every result below is about an arbitrary sequence of
outcomes.

`bio_sto_set_feature_info` walks its list of lists with one loop, whose position
is a feature and one of its samples. `writeSamples` is that loop on the samples
of one feature and `writeInfos` what it does from one feature to the next; a
feature without samples is a `NULL` dereference (`none`).

Main result: `bioStoSetFeatureInfo_rows`, a successful write appends exactly the samples of
the list, each under the current UUID of its user.
-/

namespace BiometricAuth

/-- An open database: the table and the outcomes of the SQL calls to come
(a call past the end of the list succeeds). -/
structure Store where
  /-- `EIGEN_INFO`. -/
  db : EigenInfo
  /-- Whether the next calls that prepare or step a writing statement succeed. -/
  outcomes : List Bool

namespace Store

/-- Whether the next call succeeds. -/
def ok (c : Store) : Bool := c.outcomes.headD true

/-- The store after one call that leaves the table alone. -/
def advance (c : Store) : Store := { c with outcomes := c.outcomes.tail }

/-- The store after one successful call that changes the table. -/
def step (c : Store) (db : EigenInfo) : Store where
  db := db
  outcomes := c.outcomes.tail

@[simp] theorem advance_db (c : Store) : c.advance.db = c.db := rfl
@[simp] theorem step_db (c : Store) (db : EigenInfo) : (c.step db).db = db := rfl

end Store

/-! ### `bio_sto_set_feature_info` -/

/-- What the loop of `bio_sto_set_feature_info` carries along. -/
structure WriteState where
  oldUid : ℤ
  uuid : String
  store : Store

/-- A successful `INSERT` of one sample: the UUID is looked up when the uid
changes. -/
def insertSample (uuidOf : ℤ → String) (info : FeatureInfo) (s : FeatureSample)
    (st : WriteState) : WriteState :=
  let uuid := if st.oldUid ≠ info.uid then uuidOf info.uid else st.uuid
  { oldUid := info.uid
    uuid := uuid
    store := st.store.step <| st.store.db.insert info.uid uuid info.biotype info.driver
      info.index info.indexName s.no s.data }

/-- The loop on the samples of `info`; `next` is what follows its last sample. -/
def writeSamples (uuidOf : ℤ → String) (info : FeatureInfo)
    (next : WriteState → Option (ℤ × Store)) :
    List FeatureSample → WriteState → Option (ℤ × Store)
  | [], _ => none
  | s :: samples, st =>
    if st.store.ok = false then
      some (-2, st.store.advance)
    else
      match samples with
      | [] => next (insertSample uuidOf info s st)
      | s' :: samples =>
        writeSamples uuidOf info next (s' :: samples) (insertSample uuidOf info s st)

/-- The loop from one feature to the next. -/
def writeInfos (uuidOf : ℤ → String) : List FeatureInfo → WriteState → Option (ℤ × Store)
  | [] => fun st => some (0, st.store)
  | info :: infos => writeSamples uuidOf info (writeInfos uuidOf infos) info.samples

/-- `bio_sto_set_feature_info`. -/
def bioStoSetFeatureInfo (uuidOf : ℤ → String) (c : Store) (infos : List FeatureInfo) :
    Option (ℤ × Store) :=
  if c.ok = false then
    some (-1, c.advance)
  else
    writeInfos uuidOf infos { oldUid := -1, uuid := "", store := c.advance }

/-! ### `bio_sto_clean_feature_info` and `bio_sto_update_feature_info_by_dbid` -/

/-- The filter of `bio_sto_clean_feature_info`: that of the reader, except that
an empty driver name is a wildcard too. -/
def FeatureQuery.deletes (q : FeatureQuery) (r : EigenRow) : Bool :=
  { q with driver := q.driver.filter fun d => d ≠ "" }.selects r

/-- `bio_sto_clean_feature_info`. -/
def bioStoCleanFeatureInfo (c : Store) (q : FeatureQuery) : ℤ × Store :=
  if c.ok = false then
    (-2, c.advance)
  else if c.advance.ok = false then
    (-2, c.advance.advance)
  else
    (0, c.advance.step (c.db.delete q.deletes))

/-- `bio_sto_update_feature_info_by_dbid`. -/
def bioStoUpdateFeatureInfoByDbid (c : Store) (dbid : ℕ) (uid biotype : ℤ) (driver : String)
    (index : ℤ) (indexName : String) (sampleNo : ℤ) : ℤ × Store :=
  if c.ok = false then
    (-2, c.advance)
  else if c.advance.ok = false then
    (-2, c.advance.advance)
  else
    (0, c.advance.step (c.db.update dbid uid biotype driver index indexName sampleNo))

/-- Whether a writing statement, which takes two SQL calls, succeeds, with the outcomes of the
calls after it. -/
def nextStatement (outcomes : List Bool) : Bool × List Bool :=
  if outcomes.headD true = false then (false, outcomes.tail)
  else (outcomes.tail.headD true, outcomes.tail.tail)

/-- The two SQL calls of a statement, taken together. -/
theorem runStatement_eq (c : Store) (db' : EigenInfo) :
    (if c.ok = false then (-2, c.advance)
      else if c.advance.ok = false then (-2, c.advance.advance)
      else (0, c.advance.step db') : ℤ × Store) =
      if (nextStatement c.outcomes).1 = true then (0, ⟨db', (nextStatement c.outcomes).2⟩)
      else (-2, ⟨c.db, (nextStatement c.outcomes).2⟩) := by
  unfold nextStatement Store.ok
  by_cases hprepare : c.outcomes.headD true = false
  · rw [if_pos hprepare, if_pos hprepare, if_neg Bool.false_ne_true]
    rfl
  · rw [if_neg hprepare, if_neg hprepare]
    by_cases hstep : c.outcomes.tail.headD true = false
    · rw [if_pos (show c.advance.outcomes.headD true = false from hstep), hstep,
        if_neg Bool.false_ne_true]
      rfl
    · rw [if_neg (show ¬ c.advance.outcomes.headD true = false from hstep),
        if_pos (Bool.not_eq_false _ ▸ hstep)]
      rfl

theorem bioStoCleanFeatureInfo_eq (c : Store) (q : FeatureQuery) :
    bioStoCleanFeatureInfo c q =
      if (nextStatement c.outcomes).1 = true then
        (0, ⟨c.db.delete q.deletes, (nextStatement c.outcomes).2⟩)
      else (-2, ⟨c.db, (nextStatement c.outcomes).2⟩) :=
  runStatement_eq c (c.db.delete q.deletes)

theorem bioStoUpdateFeatureInfoByDbid_eq (c : Store) (dbid : ℕ) (uid biotype : ℤ)
    (driver : String) (index : ℤ) (indexName : String) (sampleNo : ℤ) :
    bioStoUpdateFeatureInfoByDbid c dbid uid biotype driver index indexName sampleNo =
      if (nextStatement c.outcomes).1 = true then
        (0, ⟨c.db.update dbid uid biotype driver index indexName sampleNo,
          (nextStatement c.outcomes).2⟩)
      else (-2, ⟨c.db, (nextStatement c.outcomes).2⟩) :=
  runStatement_eq c (c.db.update dbid uid biotype driver index indexName sampleNo)

/-- What the cleaning function can do: it fails and leaves the table alone, or it
deletes the selected rows. -/
theorem bioStoCleanFeatureInfo_cases (c : Store) (q : FeatureQuery) :
    ((bioStoCleanFeatureInfo c q).1 = -2 ∧ (bioStoCleanFeatureInfo c q).2.db = c.db) ∨
    ((bioStoCleanFeatureInfo c q).1 = 0 ∧
      (bioStoCleanFeatureInfo c q).2.db = c.db.delete q.deletes) := by
  unfold bioStoCleanFeatureInfo
  split
  · exact Or.inl ⟨rfl, rfl⟩
  · split
    · exact Or.inl ⟨rfl, rfl⟩
    · exact Or.inr ⟨rfl, rfl⟩

/-- What the updating function can do. -/
theorem bioStoUpdateFeatureInfoByDbid_cases (c : Store) (dbid : ℕ) (uid biotype : ℤ)
    (driver : String) (index : ℤ) (indexName : String) (sampleNo : ℤ) :
    ((bioStoUpdateFeatureInfoByDbid c dbid uid biotype driver index indexName sampleNo).2.db
      = c.db) ∨
    ((bioStoUpdateFeatureInfoByDbid c dbid uid biotype driver index indexName sampleNo).1 = 0 ∧
      (bioStoUpdateFeatureInfoByDbid c dbid uid biotype driver index indexName sampleNo).2.db
        = c.db.update dbid uid biotype driver index indexName sampleNo) := by
  unfold bioStoUpdateFeatureInfoByDbid
  split
  · exact Or.inl rfl
  · split
    · exact Or.inl rfl
    · exact Or.inr ⟨rfl, rfl⟩

/-! ### What a successful write appends -/

/-- `new` holds the sample `s` of `info` under the UUID `uuid`. -/
structure EigenRow.Holds (new : EigenRow) (uuid : String) (info : FeatureInfo)
    (s : FeatureSample) : Prop where
  uid : new.uid = info.uid
  uuid : new.uuid = some uuid
  bioType : new.bioType = info.biotype
  driver : new.driver = info.driver
  eigenIndex : new.eigenIndex = info.index
  eigenIndexName : new.eigenIndexName = info.indexName
  sampleNo : new.sampleNo = s.no
  eigenData : new.eigenData = s.data

/-- The samples of a list of features, each with its feature, in the order the
loop meets them. -/
def samplesOf (infos : List FeatureInfo) : List (FeatureInfo × FeatureSample) :=
  infos.flatMap fun info => info.samples.map fun s => (info, s)

section Write

variable {uuidOf : ℤ → String}

/-- The UUID the loop holds is that of the last user. -/
def WriteState.UuidOk (uuidOf : ℤ → String) (st : WriteState) : Prop :=
  st.oldUid = -1 ∨ st.uuid = uuidOf st.oldUid

/-- One `INSERT` appends one row, holding the sample under the user's UUID. -/
theorem insertSample_rows {info : FeatureInfo} (s : FeatureSample) {st : WriteState}
    (huid : info.uid ≠ -1) (huuid : st.UuidOk uuidOf) :
    (∃ new, (insertSample uuidOf info s st).store.db.rows = st.store.db.rows ++ [new] ∧
      new.Holds (uuidOf info.uid) info s) ∧ (insertSample uuidOf info s st).UuidOk uuidOf := by
  have hlook : (if st.oldUid ≠ info.uid then uuidOf info.uid else st.uuid) = uuidOf info.uid := by
    by_cases h : st.oldUid = info.uid
    · rw [if_neg (not_not.mpr h), ← h]
      exact huuid.resolve_left (h ▸ huid)
    · rw [if_pos h]
  refine ⟨⟨_, rfl, ?_⟩, Or.inr hlook⟩
  rw [hlook]
  exact ⟨rfl, rfl, rfl, rfl, rfl, rfl, rfl, rfl⟩

/-- The rows appended by the loop on the samples of one feature, and what is
left to be done after them. -/
theorem writeSamples_rows {info : FeatureInfo} {next : WriteState → Option (ℤ × Store)}
    {samples : List FeatureSample} {st : WriteState} {c : Store}
    (huid : info.uid ≠ -1) (huuid : st.UuidOk uuidOf)
    (h : writeSamples uuidOf info next samples st = some (0, c)) :
    ∃ st' news, next st' = some (0, c) ∧ st'.UuidOk uuidOf ∧
      st'.store.db.rows = st.store.db.rows ++ news ∧
      List.Forall₂ (fun new s => EigenRow.Holds new (uuidOf info.uid) info s) news samples := by
  induction samples generalizing st with
  | nil => simp [writeSamples] at h
  | cons s samples ih =>
    obtain ⟨⟨new, hrows, hnew⟩, huuid'⟩ := insertSample_rows s huid huuid
    unfold writeSamples at h
    split at h
    · simp at h
    · cases samples with
      | nil => exact ⟨_, [new], h, huuid', hrows, .cons hnew .nil⟩
      | cons s' samples =>
        obtain ⟨st', news, hnext, huuid'', hrows', hnews⟩ := ih huuid' h
        refine ⟨st', new :: news, hnext, huuid'', ?_, .cons hnew hnews⟩
        rw [hrows', hrows, List.append_assoc, List.singleton_append]

theorem writeInfos_rows {infos : List FeatureInfo} {st : WriteState} {c : Store}
    (huid : ∀ info ∈ infos, info.uid ≠ -1) (huuid : st.UuidOk uuidOf)
    (h : writeInfos uuidOf infos st = some (0, c)) :
    ∃ news, c.db.rows = st.store.db.rows ++ news ∧
      List.Forall₂ (fun new p => EigenRow.Holds new (uuidOf p.1.uid) p.1 p.2) news
        (samplesOf infos) := by
  induction infos generalizing st with
  | nil =>
    obtain rfl : st.store = c := by simpa [writeInfos] using h
    exact ⟨[], by simp, .nil⟩
  | cons info infos ih =>
    obtain ⟨st', news, hnext, huuid', hrows, hnews⟩ :=
      writeSamples_rows (huid info (by simp)) huuid h
    obtain ⟨news', hrows', hnews'⟩ := ih (fun i hi => huid i (by simp [hi])) huuid' hnext
    refine ⟨news ++ news', by rw [hrows', hrows, List.append_assoc], ?_⟩
    rw [samplesOf, List.flatMap_cons]
    refine List.rel_append ?_ hnews'
    exact List.forall₂_map_right_iff.mpr hnews

/-- A write that returns `0` appends one row per sample of the list, in the
order of the list, each under the current UUID of its user. -/
theorem bioStoSetFeatureInfo_rows {c c' : Store} {infos : List FeatureInfo}
    (huid : ∀ info ∈ infos, info.uid ≠ -1)
    (h : bioStoSetFeatureInfo uuidOf c infos = some (0, c')) :
    ∃ news, c'.db.rows = c.db.rows ++ news ∧
      List.Forall₂ (fun new p => EigenRow.Holds new (uuidOf p.1.uid) p.1 p.2) news
        (samplesOf infos) := by
  unfold bioStoSetFeatureInfo at h
  split at h
  · simp at h
  · exact writeInfos_rows huid (Or.inl rfl) h

/-- Every appended row holds a sample of a written feature. -/
theorem exists_info_of_holds {news : List EigenRow} {infos : List FeatureInfo} {new : EigenRow}
    (h : List.Forall₂ (fun new p => EigenRow.Holds new (uuidOf p.1.uid) p.1 p.2) news
      (samplesOf infos)) (hnew : new ∈ news) :
    ∃ info ∈ infos, ∃ s, new.Holds (uuidOf info.uid) info s := by
  obtain ⟨i, hi, rfl⟩ := List.getElem_of_mem hnew
  have hi' : i < (samplesOf infos).length := h.length_eq ▸ hi
  have hold := h.get hi hi'
  obtain ⟨info, hinfo, hp⟩ := List.mem_flatMap.mp (List.get_mem (samplesOf infos) ⟨i, hi'⟩)
  obtain ⟨s, -, heq⟩ := List.mem_map.mp hp
  rw [← heq] at hold
  exact ⟨info, hinfo, s, hold⟩

end Write

/-- Writing one sample: the call fails and leaves the table alone, or it returns
`0` and the row is there. -/
theorem bioStoSetFeatureInfo_single (uuidOf : ℤ → String) (c : Store) (info : FeatureInfo)
    (s : FeatureSample) :
    ∃ ret c', bioStoSetFeatureInfo uuidOf c [{ info with samples := [s] }] = some (ret, c') ∧
      (ret ≠ 0 ∧ c'.db = c.db ∨ ret = 0 ∧ c'.db = c.db.insert info.uid
        (if info.uid = -1 then "" else uuidOf info.uid) info.biotype info.driver info.index
        info.indexName s.no s.data) := by
  unfold bioStoSetFeatureInfo
  split
  · exact ⟨-1, _, rfl, Or.inl ⟨by decide, rfl⟩⟩
  · simp only [writeInfos, writeSamples]
    split
    · exact ⟨-2, _, rfl, Or.inl ⟨by decide, rfl⟩⟩
    · refine ⟨0, _, rfl, Or.inr ⟨rfl, ?_⟩⟩
      by_cases huid : info.uid = -1
      · simp [insertSample, huid]
      · simp [insertSample, huid, Ne.symm huid]

/-- The two SQL calls of a write of one sample succeed. -/
def Store.inserts (c : Store) : Bool := c.ok && c.advance.ok

/-- The write of one sample succeeds exactly if both its SQL calls do. -/
theorem bioStoSetFeatureInfo_single_eq_zero {uuidOf : ℤ → String} {c c' : Store}
    {info : FeatureInfo} {s : FeatureSample} {ret : ℤ}
    (h : bioStoSetFeatureInfo uuidOf c [{ info with samples := [s] }] = some (ret, c')) :
    ret = 0 ↔ c.inserts = true := by
  unfold bioStoSetFeatureInfo at h
  unfold Store.inserts
  split at h
  next hok =>
    cases h
    simp [hok]
  next hok =>
    simp only [writeInfos, writeSamples] at h
    split at h
    next hadvance =>
      cases h
      simp [hadvance]
    next hadvance =>
      cases h
      simp [hok, hadvance]

end BiometricAuth
