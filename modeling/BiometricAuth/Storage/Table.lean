import BiometricAuth.Lib.Grouping

/-!
# The `EIGEN_INFO` table

The database of the framework has one table of features, `EIGEN_INFO`, with one
row per stored sample. `EigenRow` is a row, `EigenInfo` the table: its rows in
`rowid` order and the high-water mark of its `AUTOINCREMENT` key, with the two
facts SQLite keeps about that key as fields.

Text columns are `String`s: `BINARY` collation compares the UTF-8 bytes, which
is the code-point order of `String`. `EigenData` is only ever read byte by
byte, so it is kept as bytes (`Bytes`). The column `UUID` is the one text column
the schema lets be `NULL`. Integer columns are `ℤ`: SQLite keeps 64 bits of each, while the
framework binds and reads values of type `int`.

The three statements that write the table are `EigenInfo.insert`,
`EigenInfo.delete` and `EigenInfo.update`; a failed statement leaves the table
alone, so whether a statement succeeds is decided by its caller's `Bool`.
-/

namespace BiometricAuth

/-- The bytes of a C buffer or of a C string without its terminator. -/
abbrev Bytes := List UInt8

/-- A row of `EIGEN_INFO`. -/
structure EigenRow where
  /-- `ID`, the `AUTOINCREMENT` primary key. -/
  id : ℕ
  /-- `UID`. -/
  uid : ℤ
  /-- `UUID`, `none` for SQL `NULL`. -/
  uuid : Option String
  /-- `BioType`. -/
  bioType : ℤ
  /-- `Driver`. -/
  driver : String
  /-- `EigenIndex`. -/
  eigenIndex : ℤ
  /-- `EigenIndexName`. -/
  eigenIndexName : String
  /-- `SampleNo`. -/
  sampleNo : ℤ
  /-- `EigenData`. -/
  eigenData : Bytes
deriving DecidableEq, Repr

/-- What tells one feature from another: the columns
`(UID, UUID, BioType, Driver, EigenIndex)`. -/
structure FeatureKey where
  uid : ℤ
  uuid : Option String
  bioType : ℤ
  driver : String
  eigenIndex : ℤ
deriving DecidableEq, Repr

namespace FeatureKey

/-- The key as a lexicographic tuple; SQL sorts `NULL` first. -/
def toTuple (k : FeatureKey) : ℤ ×ₗ WithBot String ×ₗ ℤ ×ₗ String ×ₗ ℤ :=
  toLex (k.uid, toLex ((k.uuid : WithBot String),
    toLex (k.bioType, toLex (k.driver, k.eigenIndex))))

theorem toTuple_injective : Function.Injective toTuple := by
  rintro ⟨u, uu, b, d, i⟩ ⟨u', uu', b', d', i'⟩ h
  simp only [toTuple, EmbeddingLike.apply_eq_iff_eq, Prod.mk.injEq] at h
  obtain ⟨rfl, rfl, rfl, rfl, rfl⟩ := h
  rfl

instance : LinearOrder FeatureKey := LinearOrder.lift' toTuple toTuple_injective

theorem le_def (k k' : FeatureKey) : k ≤ k' ↔ k.toTuple ≤ k'.toTuple := Iff.rfl

theorem lt_def (k k' : FeatureKey) : k < k' ↔ k.toTuple < k'.toTuple := Iff.rfl

/-- Keys are ordered by their user first. -/
theorem uid_le {k k' : FeatureKey} (h : k ≤ k') : k.uid ≤ k'.uid := by
  rw [le_def, toTuple, toTuple, Prod.Lex.toLex_le_toLex] at h
  rcases h with h | ⟨h, -⟩
  · exact le_of_lt h
  · exact le_of_eq h

/-- Between two keys of one user and UUID the rest of the key decides. -/
theorem tail_le {k k' : FeatureKey} (h : k ≤ k') (huid : k.uid = k'.uid)
    (huuid : k.uuid = k'.uuid) :
    k.bioType < k'.bioType ∨ k.bioType = k'.bioType ∧
      (k.driver < k'.driver ∨ k.driver = k'.driver ∧ k.eigenIndex ≤ k'.eigenIndex) := by
  rw [le_def] at h
  simp only [toTuple, huid, huuid, Prod.Lex.toLex_le_toLex, lt_self_iff_false, true_and,
    false_or] at h
  rcases h with h | ⟨-, h⟩
  · exact absurd h (lt_irrefl (α := WithBot String) _)
  · exact h

/-- The strict form of `tail_le`. -/
theorem tail_lt {k k' : FeatureKey} (h : k < k') (huid : k.uid = k'.uid)
    (huuid : k.uuid = k'.uuid) :
    k.bioType < k'.bioType ∨ k.bioType = k'.bioType ∧
      (k.driver < k'.driver ∨ k.driver = k'.driver ∧ k.eigenIndex < k'.eigenIndex) := by
  rw [lt_def] at h
  simp only [toTuple, huid, huuid, Prod.Lex.toLex_lt_toLex, lt_self_iff_false, true_and,
    false_or] at h
  rcases h with h | ⟨-, h⟩
  · exact absurd h (lt_irrefl (α := WithBot String) _)
  · exact h

end FeatureKey

namespace EigenRow

/-- The feature a row belongs to. -/
def key (r : EigenRow) : FeatureKey where
  uid := r.uid
  uuid := r.uuid
  bioType := r.bioType
  driver := r.driver
  eigenIndex := r.eigenIndex

/-- The columns of the `ORDER BY` clause of `bio_sto_get_feature_info`:
`UID, UUID, BioType, Driver, EigenIndex, EigenIndexName, SampleNo`. -/
def sortKey (r : EigenRow) : FeatureKey ×ₗ String ×ₗ ℤ :=
  toLex (r.key, toLex (r.eigenIndexName, r.sampleNo))

@[simp] theorem key_uid (r : EigenRow) : r.key.uid = r.uid := rfl
@[simp] theorem key_uuid (r : EigenRow) : r.key.uuid = r.uuid := rfl
@[simp] theorem key_bioType (r : EigenRow) : r.key.bioType = r.bioType := rfl
@[simp] theorem key_driver (r : EigenRow) : r.key.driver = r.driver := rfl
@[simp] theorem key_eigenIndex (r : EigenRow) : r.key.eigenIndex = r.eigenIndex := rfl

theorem key_eq_iff {r r' : EigenRow} : r.key = r'.key ↔ r.uid = r'.uid ∧ r.uuid = r'.uuid ∧
    r.bioType = r'.bioType ∧ r.driver = r'.driver ∧ r.eigenIndex = r'.eigenIndex := by
  simp [key]

/-- Rows sorted by `sortKey` are sorted by feature. -/
theorem key_le_of_sortKey_le {r r' : EigenRow} (h : r.sortKey ≤ r'.sortKey) :
    r.key ≤ r'.key := by
  rw [sortKey, sortKey, Prod.Lex.toLex_le_toLex] at h
  rcases h with h | ⟨h, -⟩
  · exact le_of_lt h
  · exact le_of_eq h

end EigenRow

/-! ### The table -/

/-- The table `EIGEN_INFO`. -/
@[ext] structure EigenInfo where
  /-- The rows, in `rowid` order. -/
  rows : List EigenRow
  /-- The largest `ID` ever given out (`sqlite_sequence`). -/
  seq : ℕ
  /-- `ID` is a primary key. -/
  ids_nodup : (rows.map EigenRow.id).Nodup
  /-- `AUTOINCREMENT` never goes back. -/
  ids_le_seq : ∀ r ∈ rows, r.id ≤ seq

namespace EigenInfo

/-- The table right after `CREATE TABLE`. -/
def empty : EigenInfo where
  rows := []
  seq := 0
  ids_nodup := List.nodup_nil
  ids_le_seq := by simp

@[simp] theorem rows_empty : empty.rows = [] := rfl

/-- `INSERT INTO EIGEN_INFO ... VALUES (NULL, ...)`: the row gets the next `ID`. -/
def insert (db : EigenInfo) (uid : ℤ) (uuid : String) (bioType : ℤ) (driver : String)
    (eigenIndex : ℤ) (eigenIndexName : String) (sampleNo : ℤ) (eigenData : Bytes) :
    EigenInfo where
  rows := db.rows ++ [⟨db.seq + 1, uid, some uuid, bioType, driver, eigenIndex,
    eigenIndexName, sampleNo, eigenData⟩]
  seq := db.seq + 1
  ids_nodup := by
    rw [List.map_append, List.nodup_append]
    refine ⟨db.ids_nodup, by simp, ?_⟩
    intro i hi j hj heq
    obtain ⟨r, hr, rfl⟩ := List.mem_map.mp hi
    have hle := db.ids_le_seq r hr
    simp only [List.map_cons, List.map_nil, List.mem_singleton] at hj
    omega
  ids_le_seq := by
    intro r hr
    rcases List.mem_append.mp hr with hr | hr
    · exact (db.ids_le_seq r hr).trans (Nat.le_succ _)
    · rw [List.mem_singleton] at hr
      subst hr
      exact le_refl _

/-- `DELETE FROM EIGEN_INFO WHERE p`. -/
def delete (db : EigenInfo) (p : EigenRow → Bool) : EigenInfo where
  rows := db.rows.filter fun r => !p r
  seq := db.seq
  ids_nodup := db.ids_nodup.sublist (List.filter_sublist.map _)
  ids_le_seq := fun r hr => db.ids_le_seq r (List.mem_filter.mp hr).1

/-- `UPDATE EIGEN_INFO SET ... WHERE ID = dbid`, with the columns that
`bio_sto_update_feature_info_by_dbid` sets. -/
def update (db : EigenInfo) (dbid : ℕ) (uid bioType : ℤ) (driver : String) (eigenIndex : ℤ)
    (eigenIndexName : String) (sampleNo : ℤ) : EigenInfo where
  rows := db.rows.map fun r =>
    if r.id = dbid then
      { r with uid, bioType, driver, eigenIndex, eigenIndexName, sampleNo }
    else r
  seq := db.seq
  ids_nodup := by
    have h : (fun r : EigenRow => r.id) ∘ (fun r : EigenRow =>
        if r.id = dbid then
          { r with uid, bioType, driver, eigenIndex, eigenIndexName, sampleNo }
        else r) = EigenRow.id := by
      funext r
      simp only [Function.comp_apply]
      split <;> rfl
    rw [List.map_map, h]
    exact db.ids_nodup
  ids_le_seq := by
    intro r hr
    obtain ⟨r', hr', rfl⟩ := List.mem_map.mp hr
    have hle := db.ids_le_seq r' hr'
    split <;> exact hle

/-- Two rows with the same `ID` are the same row. -/
theorem eq_of_id_eq {db : EigenInfo} {r r' : EigenRow} (hr : r ∈ db.rows) (hr' : r' ∈ db.rows)
    (h : r.id = r'.id) : r = r' :=
  List.inj_on_of_nodup_map db.ids_nodup hr hr' h

end EigenInfo

end BiometricAuth
