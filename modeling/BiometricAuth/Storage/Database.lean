import BiometricAuth.Lib.Transaction
import BiometricAuth.Storage.Table

/-!
# The database file and its formats

Version 0.0.0 of the framework had `EIGEN_INFO` without the column `UUID` and nothing else. The
current version has the column, and keeps the version of the format in `DATABASE_FORMAT`; the
upgrade leaves the old table behind as `EIGEN_INFO_VERSION_0_0_0`. `Database` has the three
tables, each of which may be missing.

The statements of the upgrade are functions `Database → Option Database`: `none` is a statement
that SQLite refuses, because a table is missing or there already.
-/

namespace BiometricAuth

/-! ### Tables -/

/-- With the column `UUID` or without it. -/
inductive EigenFormat
  | version000
  | current
deriving DecidableEq

/-- A table of features in one of its two formats. -/
structure EigenTable where
  format : EigenFormat
  table : EigenInfo
  /-- Without the column there are no UUIDs. -/
  uuid_none : format = .version000 → ∀ r ∈ table.rows, r.uuid = none

/-- A row of `DATABASE_FORMAT`. -/
structure FormatVersion where
  major : ℤ
  minor : ℤ
  func : ℤ
deriving DecidableEq, Repr

/-- The database file. -/
structure Database where
  /-- `EIGEN_INFO`. -/
  eigenInfo : Option EigenTable
  /-- `EIGEN_INFO_VERSION_0_0_0`. -/
  eigenInfoVersion000 : Option EigenTable
  /-- The rows of `DATABASE_FORMAT`, in the order of their `ID`s. -/
  databaseFormat : Option (List FormatVersion)

/-- The format of this version of the framework. -/
def currentVersion : FormatVersion := ⟨1, 1, 0⟩

namespace EigenRow

/-- A row of a new table, whose `UUID` has not been set. -/
def withoutUuid (r : EigenRow) : EigenRow := { r with uuid := none }

@[simp] theorem withoutUuid_id (r : EigenRow) : r.withoutUuid.id = r.id := rfl

@[simp] theorem withoutUuid_uid (r : EigenRow) : r.withoutUuid.uid = r.uid := rfl

end EigenRow

namespace EigenInfo

/-- `INSERT INTO ... SELECT`: the rows bring their `ID`s. -/
def append (db : EigenInfo) (rows : List EigenRow)
    (h : ((db.rows ++ rows).map EigenRow.id).Nodup) : EigenInfo where
  rows := db.rows ++ rows
  seq := max db.seq ((rows.map EigenRow.id).foldr max ⊥)
  ids_nodup := h
  ids_le_seq := by
    intro r hr
    rcases List.mem_append.mp hr with hr | hr
    · exact (db.ids_le_seq r hr).trans (le_max_left _ _)
    · exact (List.le_max_of_le (List.mem_map_of_mem hr) le_rfl).trans (le_max_right _ _)

/-- `UPDATE EIGEN_INFO SET UUID = ... WHERE UID = ...`. -/
def setUuid (db : EigenInfo) (uid : ℤ) (uuid : String) : EigenInfo where
  rows := db.rows.map fun r => if r.uid = uid then { r with uuid := some uuid } else r
  seq := db.seq
  ids_nodup := by
    have hids : (fun r : EigenRow => r.id) ∘ (fun r : EigenRow =>
        if r.uid = uid then { r with uuid := some uuid } else r) = EigenRow.id := by
      funext r
      simp only [Function.comp_apply]
      split <;> rfl
    rw [List.map_map, hids]
    exact db.ids_nodup
  ids_le_seq := by
    intro r hr
    obtain ⟨r', hr', rfl⟩ := List.mem_map.mp hr
    have hle := db.ids_le_seq r' hr'
    split <;> exact hle

end EigenInfo

namespace EigenTable

/-- The table right after `internal_create_eigen_info_table`. -/
def empty : EigenTable where
  format := .current
  table := EigenInfo.empty
  uuid_none := by simp

/-- The rows of `src` are inserted without their UUIDs, unless an `ID` is taken. -/
def insertRows (dst src : EigenTable) : Option EigenTable :=
  if h : ((dst.table.rows ++ src.table.rows.map EigenRow.withoutUuid).map EigenRow.id).Nodup then
    some
      { format := dst.format
        table := dst.table.append _ h
        uuid_none := by
          intro hformat r hr
          rcases List.mem_append.mp hr with hr | hr
          · exact dst.uuid_none hformat r hr
          · obtain ⟨r', -, rfl⟩ := List.mem_map.mp hr
            rfl }
  else none

/-- The UUID of a user's rows is set, where the table has the column. -/
def setUuid (t : EigenTable) (uid : ℤ) (uuid : String) : Option EigenTable :=
  if t.format = .current then
    some
      { format := .current
        table := t.table.setUuid uid uuid
        uuid_none := nofun }
  else none

/-- `SELECT UID FROM EIGEN_INFO GROUP BY UID ORDER BY UID`. -/
def selectUids (t : EigenTable) : List ℤ :=
  (Grouping.keys EigenRow.uid t.table.rows).insertionSort (· ≤ ·)

theorem mem_selectUids {t : EigenTable} {uid : ℤ} :
    uid ∈ t.selectUids ↔ ∃ r ∈ t.table.rows, r.uid = uid := by
  rw [selectUids, List.mem_insertionSort, Grouping.mem_keys]

/-- The new table gets the old rows, for it has none of its own. -/
theorem insertRows_empty (src : EigenTable) : ∃ t, empty.insertRows src = some t ∧
    t.format = .current ∧ t.table.rows = src.table.rows.map EigenRow.withoutUuid := by
  have hids : ((empty.table.rows ++ src.table.rows.map EigenRow.withoutUuid).map
      EigenRow.id).Nodup := by
    have hnodup := src.table.ids_nodup
    simpa [empty, Function.comp_def] using hnodup
  rw [insertRows, dif_pos hids]
  exact ⟨_, rfl, rfl, rfl⟩

end EigenTable

/-! ### Statements -/

namespace Database

/-- The file as SQLite creates it. -/
def empty : Database := ⟨none, none, none⟩

/-- `ALTER TABLE EIGEN_INFO RENAME TO EIGEN_INFO_VERSION_0_0_0`. -/
def renameEigenInfo (d : Database) : Option Database :=
  match d.eigenInfo, d.eigenInfoVersion000 with
  | some t, none => some { d with eigenInfo := none, eigenInfoVersion000 := some t }
  | _, _ => none

/-- `CREATE TABLE IF NOT EXISTS EIGEN_INFO`. -/
def createEigenInfo (d : Database) : Option Database :=
  some { d with eigenInfo := some (d.eigenInfo.getD .empty) }

/-- `INSERT INTO EIGEN_INFO (...) SELECT ... FROM EIGEN_INFO_VERSION_0_0_0`. -/
def migrateRows (d : Database) : Option Database := do
  let dst ← d.eigenInfo
  let src ← d.eigenInfoVersion000
  let t ← dst.insertRows src
  some { d with eigenInfo := some t }

/-- Preparing the query of `EIGEN_INFO` changes nothing, but the table has to be there. -/
def prepareUids (d : Database) : Option Database := d.eigenInfo.map fun _ => d

/-- The rows of that query. -/
def uids (d : Database) : List ℤ := (d.eigenInfo.map EigenTable.selectUids).getD []

/-- `UPDATE EIGEN_INFO SET UUID = uuid WHERE UID = uid`. -/
def setUuid (uid : ℤ) (uuid : String) (d : Database) : Option Database := do
  let t ← d.eigenInfo
  let t ← t.setUuid uid uuid
  some { d with eigenInfo := some t }

/-- `CREATE TABLE IF NOT EXISTS DATABASE_FORMAT`. -/
def createDatabaseFormat (d : Database) : Option Database :=
  some { d with databaseFormat := some (d.databaseFormat.getD []) }

/-- Preparing a statement on `DATABASE_FORMAT`. -/
def prepareFormat (d : Database) : Option Database := d.databaseFormat.map fun _ => d

/-- `INSERT INTO DATABASE_FORMAT ... VALUES (NULL, ...)`. -/
def insertFormat (v : FormatVersion) (d : Database) : Option Database :=
  d.databaseFormat.map fun versions => { d with databaseFormat := some (versions ++ [v]) }

end Database

end BiometricAuth
