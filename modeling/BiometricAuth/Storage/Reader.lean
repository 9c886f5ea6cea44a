import BiometricAuth.Storage.Table
import BiometricAuth.Common.CInt

/-!
# Reading features: `bio_sto_get_feature_info`

The reader selects rows of `EIGEN_INFO`, sorts them, and rebuilds the two-level
list of features and samples in one pass over the cursor. SQLite selects and sorts by the
64-bit values stored; the loop reads `UID`, `BioType`, `EigenIndex` and `SampleNo` with
`sqlite3_column_int` (`FeatureQuery.columns`, `EigenRow.toSample`). `ReadState` is what
that pass carries from row to row (the `old_*` variables, the user's UUID and
the list built so far) and `readRow` is the body of its loop.

A step can go wrong in three ways, all of them a `NULL` dereference: a row
without a UUID (`strncpy`), a first comparison against `old_driver`
(`strcmp`), and a sample to be appended when no feature has been opened. They
are the `none`s of `readRow`; `bioStoGetFeatureInfo` is `none` when one of them
is reached.

`uuidOf` is `internal_get_uuid_by_uid`, the map from a user to the current
UUID. The buffers `uuid`, `old_uuid` and `user_uuid` have `UUID_BUF_LEN` bytes
and a current UUID has 36, so comparing them is comparing the strings.
-/

namespace BiometricAuth

/-- One sample of a feature (`feature_sample`). -/
structure FeatureSample where
  dbid : ℕ
  no : ℤ
  data : Bytes
deriving DecidableEq, Repr

/-- One feature with its samples (`feature_info`). -/
structure FeatureInfo where
  uid : ℤ
  biotype : ℤ
  driver : String
  index : ℤ
  indexName : String
  samples : List FeatureSample
deriving DecidableEq, Repr

/-! ### The query -/

/-- The arguments of `bio_sto_get_feature_info`: `-1` and `none` (`NULL`) are the
wildcards. -/
structure FeatureQuery where
  uid : ℤ
  biotype : ℤ
  driver : Option String
  indexStart : ℤ
  indexEnd : ℤ
deriving DecidableEq, Repr

namespace FeatureQuery

/-- The conjuncts of the `WHERE` clause, put together as `all_sql_str` is. -/
def clauses (q : FeatureQuery) : List (EigenRow → Bool) :=
  [fun r => decide (q.indexStart ≤ r.eigenIndex)] ++
  (if q.uid ≠ -1 then [fun r => decide (r.uid = q.uid)] else []) ++
  (if q.biotype ≠ -1 then [fun r => decide (r.bioType = q.biotype)] else []) ++
  (q.driver.toList.map fun d r => decide (r.driver = d)) ++
  (if q.indexEnd ≠ -1 then [fun r => decide (r.eigenIndex ≤ q.indexEnd)] else [])

/-- Whether the `WHERE` clause selects a row. -/
def selects (q : FeatureQuery) (r : EigenRow) : Bool := q.clauses.all fun c => c r

theorem selects_iff {q : FeatureQuery} {r : EigenRow} : q.selects r = true ↔
    q.indexStart ≤ r.eigenIndex ∧ (q.uid = -1 ∨ r.uid = q.uid) ∧
    (q.biotype = -1 ∨ r.bioType = q.biotype) ∧
    (∀ d, q.driver = some d → r.driver = d) ∧
    (q.indexEnd = -1 ∨ r.eigenIndex ≤ q.indexEnd) := by
  obtain ⟨u, b, d, s, e⟩ := q
  cases d <;> by_cases hu : u = -1 <;> by_cases hb : b = -1 <;> by_cases he : e = -1 <;>
    simp [selects, clauses, hu, hb, he]

end FeatureQuery

/-- The rows of the cursor: `SELECT ... WHERE ... ORDER BY ...`. -/
def selectRows (db : EigenInfo) (q : FeatureQuery) : List EigenRow :=
  (db.rows.filter q.selects).insertionSort fun r r' => r.sortKey ≤ r'.sortKey

theorem selectRows_perm (db : EigenInfo) (q : FeatureQuery) :
    (selectRows db q).Perm (db.rows.filter q.selects) :=
  List.perm_insertionSort _ _

theorem mem_selectRows {db : EigenInfo} {q : FeatureQuery} {r : EigenRow} :
    r ∈ selectRows db q ↔ r ∈ db.rows ∧ q.selects r = true := by
  rw [(selectRows_perm db q).mem_iff, List.mem_filter]

theorem selectRows_sorted (db : EigenInfo) (q : FeatureQuery) :
    (selectRows db q).Pairwise fun r r' => r.key ≤ r'.key := by
  have : Std.Total fun r r' : EigenRow => r.sortKey ≤ r'.sortKey := ⟨fun _ _ => le_total _ _⟩
  have : IsTrans EigenRow fun r r' => r.sortKey ≤ r'.sortKey := ⟨fun _ _ _ => le_trans⟩
  exact (List.pairwise_insertionSort _ _).imp EigenRow.key_le_of_sortKey_le

theorem selectRows_ids_nodup (db : EigenInfo) (q : FeatureQuery) :
    ((selectRows db q).map EigenRow.id).Nodup :=
  ((selectRows_perm db q).map _).nodup_iff.mpr
    (db.ids_nodup.sublist (List.filter_sublist.map _))

/-! ### The columns as the loop reads them -/

/-- The row in the variables `uid`, `biotype` and `idx` of the loop: `sqlite3_column_int` keeps the
lower 32 bits of a column. A column that the `WHERE` clause bounds by the arguments, which are of
type `int`, comes through whole (`columns_eq_columnInt`). -/
def FeatureQuery.columns (q : FeatureQuery) (r : EigenRow) : EigenRow :=
  { r with
    uid := if q.uid = -1 then columnInt r.uid else r.uid
    bioType := if q.biotype = -1 then columnInt r.bioType else r.bioType
    eigenIndex := if q.indexEnd = -1 then columnInt r.eigenIndex else r.eigenIndex }

namespace FeatureQuery

variable {q : FeatureQuery} {r : EigenRow}

@[simp] theorem columns_id : (q.columns r).id = r.id := rfl
@[simp] theorem columns_uuid : (q.columns r).uuid = r.uuid := rfl
@[simp] theorem columns_driver : (q.columns r).driver = r.driver := rfl
@[simp] theorem columns_eigenIndexName : (q.columns r).eigenIndexName = r.eigenIndexName := rfl
@[simp] theorem columns_sampleNo : (q.columns r).sampleNo = r.sampleNo := rfl
@[simp] theorem columns_eigenData : (q.columns r).eigenData = r.eigenData := rfl

theorem columns_uid (h : q.uid ≠ -1) : (q.columns r).uid = r.uid := if_neg h

theorem columns_bioType (h : 0 ≤ q.biotype) : (q.columns r).bioType = r.bioType :=
  if_neg (by omega)

theorem columns_eigenIndex (h : q.indexEnd ≠ -1) : (q.columns r).eigenIndex = r.eigenIndex :=
  if_neg h

theorem columns_eigenIndex_unbounded (h : q.indexEnd = -1) :
    (q.columns r).eigenIndex = columnInt r.eigenIndex := if_pos h

/-- The arguments are of type `int`, as those of the function are. -/
structure Ints (q : FeatureQuery) : Prop where
  uid : IsCInt q.uid
  biotype : IsCInt q.biotype
  indexStart : IsCInt q.indexStart
  indexEnd : IsCInt q.indexEnd

/-- Of a selected row the loop reads every number with `sqlite3_column_int`. -/
theorem columns_eq_columnInt (hints : q.Ints) (h : q.selects r = true) :
    q.columns r = { r with
      uid := columnInt r.uid
      bioType := columnInt r.bioType
      eigenIndex := columnInt r.eigenIndex } := by
  obtain ⟨hle, hu, hb, -, he⟩ := selects_iff.mp h
  -- a uid that was asked for is an `int` already
  have huid' : (q.columns r).uid = columnInt r.uid := by
    by_cases hwild : q.uid = -1
    · exact if_pos hwild
    · rw [columns_uid hwild, hu.resolve_left hwild, columnInt_of_isCInt hints.uid]
  -- and so is a type
  have hbio' : (q.columns r).bioType = columnInt r.bioType := by
    by_cases hwild : q.biotype = -1
    · exact if_pos hwild
    · exact (if_neg hwild).trans (by rw [hb.resolve_left hwild, columnInt_of_isCInt hints.biotype])
  -- an index of a range that was asked for lies between two `int`s
  have hidx' : (q.columns r).eigenIndex = columnInt r.eigenIndex := by
    by_cases hwild : q.indexEnd = -1
    · exact if_pos hwild
    · have hint : IsCInt r.eigenIndex :=
        ⟨hints.indexStart.1.trans hle, (he.resolve_left hwild).trans_lt hints.indexEnd.2⟩
      rw [columns_eigenIndex hwild, columnInt_of_isCInt hint]
  rw [← huid', ← hbio', ← hidx']
  rfl

end FeatureQuery

/-! ### The loop over the cursor -/

/-- The variables the loop carries from row to row. -/
structure ReadState where
  oldUid : ℤ
  oldBioType : ℤ
  /-- `none` for `NULL`. -/
  oldDriver : Option String
  oldIdx : ℤ
  oldUuid : String
  userUuid : String
  /-- The list built so far, without its blank head. -/
  infoList : List FeatureInfo
deriving DecidableEq, Repr

namespace ReadState

/-- The variables as they are initialised before the loop. -/
def init : ReadState where
  oldUid := -1
  oldBioType := -1
  oldDriver := none
  oldIdx := -1
  oldUuid := ""
  userUuid := ""
  infoList := []

/-- The test that decides whether a row opens a new feature: any of uid,
biotype, driver, index or UUID has changed. `none` when `||` gets as far as
`strcmp(old_driver, driver)` while `old_driver` is `NULL`. -/
def opensFeature (st : ReadState) (r : EigenRow) (uuid : String) : Option Bool :=
  if st.oldUid < r.uid ∨ st.oldBioType < r.bioType then some true
  else
    match st.oldDriver with
    | none => none
    | some d => some (d ≠ r.driver ∨ st.oldIdx < r.eigenIndex ∨ st.oldUuid ≠ uuid)

end ReadState

/-- The sample of a row: `ID` is read with 64 bits, `SampleNo` with `sqlite3_column_int`. -/
def EigenRow.toSample (r : EigenRow) : FeatureSample where
  dbid := r.id
  no := columnInt r.sampleNo
  data := r.eigenData

/-- The feature a row opens, its columns as read. -/
def EigenRow.toFeature (r : EigenRow) : FeatureInfo where
  uid := r.uid
  biotype := r.bioType
  driver := r.driver
  index := r.eigenIndex
  indexName := r.eigenIndexName
  samples := [r.toSample]

/-- `sample->next = ...`: a sample at the end of the last feature. -/
def appendSample (infos : List FeatureInfo) (s : FeatureSample) : Option (List FeatureInfo) :=
  match infos.getLast? with
  | none => none
  | some info => some (infos.dropLast ++ [{ info with samples := info.samples ++ [s] }])

/-- The body of the loop for one row of the cursor, its columns as read. -/
def readRow (uuidOf : ℤ → String) (st : ReadState) (r : EigenRow) : Option ReadState := do
  let uuid ← r.uuid
  if ← st.opensFeature r uuid then
    -- the UUID of the user is looked up again only when the uid changes
    let st := if st.oldUid ≠ r.uid then
        { st with userUuid := uuidOf r.uid, oldUid := r.uid }
      else st
    if uuid ≠ st.userUuid then
      some st
    else
      some { st with
        oldUid := r.uid
        oldBioType := r.bioType
        oldDriver := some r.driver
        oldIdx := r.eigenIndex
        oldUuid := uuid
        infoList := st.infoList ++ [r.toFeature] }
  else
    if uuid ≠ st.userUuid then
      some st
    else
      (appendSample st.infoList r.toSample).map fun infos => { st with infoList := infos }

/-- The loop over a cursor. -/
def readRows (uuidOf : ℤ → String) (rows : List EigenRow) : Option ReadState :=
  rows.foldlM (readRow uuidOf) ReadState.init

/-- `bio_sto_get_feature_info`. -/
def bioStoGetFeatureInfo (uuidOf : ℤ → String) (db : EigenInfo) (q : FeatureQuery) :
    Option (List FeatureInfo) :=
  (readRows uuidOf ((selectRows db q).map q.columns)).map ReadState.infoList

/-! ### What one row does -/

section Step

variable {uuidOf : ℤ → String} {st st' : ReadState} {r : EigenRow}

@[simp] theorem readRows_nil : readRows uuidOf [] = some ReadState.init := rfl

theorem readRows_append_singleton (uuidOf : ℤ → String) (rows : List EigenRow) (r : EigenRow) :
    readRows uuidOf (rows ++ [r]) = (readRows uuidOf rows).bind fun st => readRow uuidOf st r := by
  simp [readRows, List.foldlM_append, Option.bind_eq_bind]

/-- The UUID the loop holds the row's UUID against: looked up afresh when the
uid changes. -/
def ReadState.lookup (uuidOf : ℤ → String) (st : ReadState) (r : EigenRow) : String :=
  if st.oldUid ≠ r.uid then uuidOf r.uid else st.userUuid

/-- A row that passes the test is skipped, its user noted, when its UUID is not the one held. -/
theorem readRow_skip {uuid : String} (huuid : r.uuid = some uuid)
    (hopen : st.opensFeature r uuid = some true) (hstale : uuid ≠ st.lookup uuidOf r) :
    readRow uuidOf st r = some { st with oldUid := r.uid, userUuid := st.lookup uuidOf r } := by
  unfold ReadState.lookup at hstale ⊢
  by_cases hu : st.oldUid = r.uid
  · rw [if_neg (not_not.mpr hu)] at hstale ⊢
    simp [readRow, huuid, hopen, ← hu, hstale]
  · rw [if_pos hu] at hstale ⊢
    simp [readRow, huuid, hopen, hu, hstale]

variable (uuidOf) in
/-- A row that fails the test is skipped, and nothing noted, when its UUID is not the one held. -/
theorem readRow_stay {uuid : String} (huuid : r.uuid = some uuid)
    (hopen : st.opensFeature r uuid = some false) (hstale : uuid ≠ st.userUuid) :
    readRow uuidOf st r = some st := by
  simp [readRow, huuid, hopen, hstale]

variable (uuidOf) in
/-- The comparison with a `NULL` driver ends the loop. -/
theorem readRow_crash {uuid : String} (huuid : r.uuid = some uuid)
    (hopen : st.opensFeature r uuid = none) : readRow uuidOf st r = none := by
  simp [readRow, huuid, hopen]

/-- A row that passes the test opens a feature when its UUID is the one held. -/
theorem readRow_open {uuid : String} (huuid : r.uuid = some uuid)
    (hopen : st.opensFeature r uuid = some true) (hcur : uuid = st.lookup uuidOf r) :
    readRow uuidOf st r = some
      { oldUid := r.uid, oldBioType := r.bioType, oldDriver := some r.driver,
        oldIdx := r.eigenIndex, oldUuid := uuid, userUuid := uuid,
        infoList := st.infoList ++ [r.toFeature] } := by
  unfold ReadState.lookup at hcur
  by_cases hu : st.oldUid = r.uid
  · rw [if_neg (not_not.mpr hu)] at hcur
    simp [readRow, huuid, hopen, hu, ← hcur]
  · rw [if_pos hu] at hcur
    simp [readRow, huuid, hopen, hu, ← hcur]

variable (uuidOf) in
/-- A row that fails the test is appended to the last feature when its UUID is the one held. -/
theorem readRow_append {uuid : String} (huuid : r.uuid = some uuid)
    (hopen : st.opensFeature r uuid = some false) (hcur : uuid = st.userUuid) :
    readRow uuidOf st r =
      (appendSample st.infoList r.toSample).map fun infos => { st with infoList := infos } := by
  simp [readRow, huuid, hopen, ← hcur]

/-- What a row does: the user stays or is looked up, and the list stays, or the row opens a feature
of that user under the UUID found, or it is appended to the last one. -/
theorem readRow_cases (h : readRow uuidOf st r = some st') :
    (st'.oldUid = st.oldUid ∧ st'.userUuid = st.userUuid ∨
        st'.oldUid = r.uid ∧ st'.userUuid = uuidOf r.uid) ∧
      (st'.infoList = st.infoList ∨
        st'.infoList = st.infoList ++ [r.toFeature] ∧ st'.oldUid = r.uid ∧
          r.uuid = some st'.userUuid ∨
        appendSample st.infoList r.toSample = some st'.infoList) := by
  unfold readRow at h
  simp only [Option.bind_eq_bind, Option.bind_eq_some_iff] at h
  obtain ⟨uuid, huuid, b, -, h⟩ := h
  cases b with
  | true =>
    -- the tests let the row through
    rw [if_pos rfl] at h
    by_cases huid : st.oldUid = r.uid
    · -- of the same user, so the UUID is not looked up
      rw [if_neg (not_not.mpr huid)] at h
      split at h <;> obtain rfl := Option.some.inj h
      · exact ⟨.inl ⟨rfl, rfl⟩, .inl rfl⟩
      next hcurrent =>
        exact ⟨.inl ⟨huid.symm, rfl⟩, .inr (.inl ⟨rfl, rfl, by rw [huuid, not_not.mp hcurrent]⟩)⟩
    · -- of another user, who is looked up
      rw [if_pos huid] at h
      split at h <;> obtain rfl := Option.some.inj h
      · exact ⟨.inr ⟨rfl, rfl⟩, .inl rfl⟩
      next hcurrent =>
        exact ⟨.inr ⟨rfl, rfl⟩, .inr (.inl ⟨rfl, rfl, by rw [huuid, not_not.mp hcurrent]⟩)⟩
  | false =>
    -- they do not
    rw [if_neg (by simp)] at h
    split at h
    · -- it is not current, and skipped
      obtain rfl := Option.some.inj h
      exact ⟨.inl ⟨rfl, rfl⟩, .inl rfl⟩
    · -- it is a further sample
      obtain ⟨infos, happ, rfl⟩ := Option.map_eq_some_iff.mp h
      exact ⟨.inl ⟨rfl, rfl⟩, .inr (.inr happ)⟩

/-- What a row does to the list: nothing, or it opens a feature, or it is
appended to the last one. -/
theorem readRow_infoList (h : readRow uuidOf st r = some st') :
    st'.infoList = st.infoList ∨ st'.infoList = st.infoList ++ [r.toFeature] ∨
      appendSample st.infoList r.toSample = some st'.infoList :=
  (readRow_cases h).2.imp_right (Or.imp_left And.left)

end Step

end BiometricAuth
