import BiometricAuth.Common.CInt
import BiometricAuth.Storage.Database

/-!
# Upgrading the database

`internal_upgrade_db_format_from_null` runs in a transaction: it renames the old table, creates
the new one, copies the rows, sets the UUID of every user and writes the version row. Every
statement in between is checked, and the transaction is rolled back if one fails. Three results
are not looked at: that of `BEGIN`, that of `COMMIT`, and whether the query of the users has
ended because there are no more or because a step of it has failed.

Main result: `upgrade_allOrNothing_iff` — for every pattern of failures, exactly when the upgrade
is all or nothing.
-/

namespace BiometricAuth

open Transaction

/-! ### The calls of SQLite -/

/-- Which calls of `internal_create_datebase_info` fail. -/
structure FormatCalls where
  create : Bool
  prepare : Bool
  insert : Bool

/-- Which calls of `internal_upgrade_db_format_from_null` fail. -/
structure UpgradeCalls where
  begin : Bool
  alter : Bool
  create : Bool
  insert : Bool
  prepare : Bool
  /-- The steps of the query of the users. -/
  step : ℕ → Bool
  /-- The updates in the body of its loop. -/
  update : ℕ → Bool
  format : FormatCalls
  commit : Bool
  rollback : Bool

/-- Which calls of `bio_sto_check_and_upgrade_db_format` fail. -/
structure CheckCalls where
  /-- The search for `DATABASE_FORMAT`. -/
  find : Bool
  prepare : Bool
  step : Bool
  upgrade : UpgradeCalls

/-- No call fails. -/
def FormatCalls.succeed : FormatCalls := ⟨false, false, false⟩

/-- No call fails. -/
def UpgradeCalls.succeed : UpgradeCalls where
  begin := false
  alter := false
  create := false
  insert := false
  prepare := false
  step _ := false
  update _ := false
  format := .succeed
  commit := false
  rollback := false

/-- No call fails. -/
def CheckCalls.succeed : CheckCalls := ⟨false, false, false, .succeed⟩

/-! ### The functions -/

/-- `internal_create_eigen_info_table`. -/
def internalCreateEigenInfoTable (fails : Bool) : Script Database Unit :=
  .statement fails Database.createEigenInfo

/-- `internal_create_datebase_info`. -/
def internalCreateDatebaseInfo (calls : FormatCalls) : Script Database Unit := do
  .statement calls.create Database.createDatabaseFormat
  .statement calls.prepare Database.prepareFormat
  .statement calls.insert (Database.insertFormat currentVersion)

section Upgrade

variable (calls : UpgradeCalls) (uuidOf : ℤ → String)

/-- The loop over the users, at its `k`-th step. A step that fails ends it, like the end of the
query does. The uid is read with `sqlite3_column_int`. -/
def updateUuids : ℕ → List ℤ → Script Database Unit
  | _, [] => pure ()
  | k, column :: columns =>
    if calls.step k then pure ()
    else do
      let uid := columnInt column
      .statement (calls.update k) (Database.setUuid uid (uuidOf uid))
      updateUuids (k + 1) columns

/-- What the upgrade does once the old table has been renamed. -/
def migrationScript : Script Database Unit := do
  internalCreateEigenInfoTable calls.create
  .statement calls.insert Database.migrateRows
  .statement calls.prepare Database.prepareUids
  let columns ← Script.query Database.uids
  updateUuids calls uuidOf 0 columns
  internalCreateDatebaseInfo calls.format

/-- What the upgrade does in its transaction. -/
def upgradeScript : Script Database Unit := do
  .statement calls.alter Database.renameEigenInfo
  migrationScript calls uuidOf

/-- `internal_upgrade_db_format_from_null`: wherever a call is found to have failed, the
transaction is rolled back and the result is `-1`. -/
def internalUpgradeDbFormatFromNull (c : Conn Database) : ℤ × Conn Database :=
  match transact calls.begin calls.commit calls.rollback (upgradeScript calls uuidOf) c with
  | (some (), c') => (0, c')
  | (none, c') => (-1, c')

end Upgrade

/-- The version `bio_sto_check_and_upgrade_db_format` goes by: 0.0.0 without the table, and
without a row to read; `none` where it gives up. -/
def readFormat (calls : CheckCalls) (d : Database) : Option FormatVersion :=
  if calls.find then none
  else
    match d.databaseFormat with
    | none => some ⟨0, 0, 0⟩
    | some versions =>
      if calls.prepare then none
      else if calls.step then some ⟨0, 0, 0⟩
      else some (versions.head?.getD ⟨0, 0, 0⟩)

/-- `bio_sto_check_and_upgrade_db_format`. -/
def bioStoCheckAndUpgradeDbFormat (calls : CheckCalls) (uuidOf : ℤ → String) (c : Conn Database) :
    ℤ × Conn Database :=
  match readFormat calls c.view with
  | none => (-1, c)
  | some v =>
    if v = ⟨0, 0, 0⟩ then
      let (ret, c') := internalUpgradeDbFormatFromNull calls.upgrade uuidOf c
      if ret < 0 then (-2, c') else (0, c')
    else if v.major = 1 ∧ v.minor = 1 ∧ 0 ≤ v.func then (0, c)
    else (-1, c)

/-! ### What the upgrade is for -/

namespace Database

/-- The format is 0.0.0: there is no row in `DATABASE_FORMAT`. -/
def Format000 (d : Database) : Prop := d.databaseFormat.getD [] = []

/-- There is an old table, and it can be renamed. -/
def Renamable (d : Database) : Prop := d.eigenInfo.isSome ∧ d.eigenInfoVersion000 = none

/-- The format is 1.1.0, and every row of `EIGEN_INFO` has a UUID. -/
structure IsCurrent (d : Database) : Prop where
  version : d.databaseFormat.bind List.head? = some currentVersion
  uuids : ∃ t, d.eigenInfo = some t ∧ t.format = .current ∧ ∀ r ∈ t.table.rows, r.uuid ≠ none

end Database

/-- With the result 0 the committed database is current; with a negative one it is the old. -/
def AllOrNothing (d : Database) (result : ℤ × Conn Database) : Prop :=
  (result.1 = 0 → result.2.committed.IsCurrent) ∧ (result.1 < 0 → result.2.committed = d)

namespace UpgradeCalls

/-- No call that is checked fails, when the query has `n` users. -/
structure NoneFails (calls : UpgradeCalls) (n : ℕ) : Prop where
  alter : calls.alter = false
  create : calls.create = false
  insert : calls.insert = false
  prepare : calls.prepare = false
  /-- The updates up to the first step that fails. -/
  update : ∀ k < n, (∀ j ≤ k, calls.step j = false) → calls.update k = false
  format : calls.format = .succeed

/-- The failures, and the tables, that the upgrade is safe from. -/
structure Safe (calls : UpgradeCalls) (d : Database) : Prop where
  /-- If the transaction cannot be opened, nothing fails in it after the old table has been
  renamed. -/
  begin : calls.begin = true → d.Renamable → calls.alter = false → calls.NoneFails d.uids.length
  /-- If nothing fails in the transaction, it can be committed. -/
  commit : calls.begin = false → d.Renamable → calls.NoneFails d.uids.length →
    calls.commit = false
  /-- Nor does a step of the query fail before the last user. -/
  step : d.Renamable → calls.NoneFails d.uids.length → ∀ k < d.uids.length, calls.step k = false
  /-- And every uid is one that `sqlite3_column_int` reads back. -/
  uids : d.Renamable → calls.NoneFails d.uids.length → ∀ uid ∈ d.uids, IsCInt uid

end UpgradeCalls

/-! ### The loop over the users -/

section Loop

variable {calls : UpgradeCalls} {uuidOf : ℤ → String} {d : Database}

/-- The columns that are read, from the `k`-th step on. -/
def reached (calls : UpgradeCalls) : ℕ → List ℤ → List ℤ
  | _, [] => []
  | k, uid :: uids => if calls.step k then [] else uid :: reached calls (k + 1) uids

/-- A row after its user has been reached, or not. -/
def EigenRow.setUuidIn (uuidOf : ℤ → String) (uids : List ℤ) (r : EigenRow) : EigenRow :=
  if r.uid ∈ uids then { r with uuid := some (uuidOf r.uid) } else r

/-- The updates from the `k`-th step on succeed. -/
def UpdatesSucceed (calls : UpgradeCalls) (k n : ℕ) : Prop :=
  ∀ i < n, (∀ j ≤ i, calls.step (k + j) = false) → calls.update (k + i) = false

theorem updatesSucceed_of_step {k : ℕ} (hstep : calls.step k = true) (n : ℕ) :
    UpdatesSucceed calls k n := by
  intro i _ hsteps
  have hfirst := hsteps 0 (Nat.zero_le i)
  rw [Nat.add_zero, hstep] at hfirst
  cases hfirst

theorem updatesSucceed_succ {k n : ℕ} (hstep : calls.step k = false) :
    UpdatesSucceed calls k (n + 1) ↔
      calls.update k = false ∧ UpdatesSucceed calls (k + 1) n := by
  constructor
  · -- the first update is the one of step `k`, the others are those from `k + 1` on
    intro h
    refine ⟨h 0 (Nat.succ_pos n) fun j hj => ?_, fun i hi hsteps => ?_⟩
    · rwa [Nat.le_zero.mp hj]
    · have hupdate := h (i + 1) (Nat.succ_lt_succ hi) fun j hj => ?_
      · rwa [Nat.add_assoc, Nat.add_comm 1 i]
      · cases j with
        | zero => exact hstep
        | succ j =>
          have hj := hsteps j (Nat.le_of_succ_le_succ hj)
          rwa [Nat.add_assoc, Nat.add_comm 1 j] at hj
  · -- the first one, or one of those left
    rintro ⟨hupdate, h⟩ i hi hsteps
    cases i with
    | zero => exact hupdate
    | succ i =>
      have hlater := h i (Nat.lt_of_succ_lt_succ hi) fun j hj => ?_
      · rwa [Nat.add_assoc, Nat.add_comm 1 i] at hlater
      · have hj := hsteps (j + 1) (Nat.succ_le_succ hj)
        rwa [Nat.add_assoc, Nat.add_comm 1 j]

theorem Database.setUuid_spec {t : EigenTable} (ht : d.eigenInfo = some t)
    (hformat : t.format = .current) (uid : ℤ) (uuid : String) :
    ∃ t', d.setUuid uid uuid = some { d with eigenInfo := some t' } ∧ t'.format = .current ∧
      t'.table.rows =
        t.table.rows.map fun r => if r.uid = uid then { r with uuid := some uuid } else r := by
  rw [Database.setUuid, ht]
  simp only [Option.bind_eq_bind, Option.bind_some, EigenTable.setUuid, if_pos hformat]
  exact ⟨_, rfl, rfl, rfl⟩

/-- A step that fails ends the loop, and nothing is amiss. -/
theorem updateUuids_step {k : ℕ} (hstep : calls.step k = true) (column : ℤ) (columns : List ℤ) :
    (updateUuids calls uuidOf k (column :: columns)).run d = (some (), d) := by
  rw [updateUuids, if_pos hstep]
  rfl

/-- A column is read; the loop goes on if the update succeeds. -/
theorem updateUuids_cons {k : ℕ} {d' : Database} {column : ℤ} (hstep : calls.step k = false)
    (hset : d.setUuid (columnInt column) (uuidOf (columnInt column)) = some d')
    (columns : List ℤ) : (updateUuids calls uuidOf k (column :: columns)).run d =
      if calls.update k then (none, d) else (updateUuids calls uuidOf (k + 1) columns).run d' := by
  rw [updateUuids, if_neg (by simp [hstep])]
  cases calls.update k with
  | true => exact Script.bind_of_none (Script.statement_true _ d)
  | false => exact Script.bind_of_some (Script.statement_some hset)

/-- The loop gets through if the updates that it makes succeed. By induction on the users that
are left. -/
theorem updateUuids_isSome_iff {t : EigenTable} {columns : List ℤ} (k : ℕ)
    (ht : d.eigenInfo = some t) (hformat : t.format = .current) :
    ((updateUuids calls uuidOf k columns).run d).1.isSome ↔
      UpdatesSucceed calls k columns.length := by
  induction columns generalizing k d t with
  | nil => exact iff_of_true rfl fun i hi => absurd hi (Nat.not_lt_zero i)
  | cons column columns ih =>
    cases hstep : calls.step k with
    | true =>
      rw [updateUuids_step hstep]
      exact iff_of_true rfl (updatesSucceed_of_step hstep _)
    | false =>
      obtain ⟨t₁, hset, hformat₁, -⟩ :=
        Database.setUuid_spec ht hformat (columnInt column) (uuidOf (columnInt column))
      rw [updateUuids_cons hstep hset, List.length_cons, updatesSucceed_succ hstep]
      cases hupdate : calls.update k with
      | true => exact iff_of_false nofun nofun
      | false =>
        rw [if_neg Bool.false_ne_true, and_iff_right rfl]
        exact ih (k + 1) rfl hformat₁

theorem map_setUuidIn_nil (rows : List EigenRow) :
    rows.map (EigenRow.setUuidIn uuidOf []) = rows :=
  (List.map_congr_left fun _ _ => if_neg List.not_mem_nil).trans (List.map_id _)

/-- One user, then the others. -/
theorem EigenRow.setUuidIn_cons (uid : ℤ) (uids : List ℤ) (r : EigenRow) :
    r.setUuidIn uuidOf (uid :: uids) = EigenRow.setUuidIn uuidOf uids
      (if r.uid = uid then { r with uuid := some (uuidOf uid) } else r) := by
  unfold EigenRow.setUuidIn
  by_cases hr : r.uid = uid
  · -- a row that has been set is set to the same UUID if it is reached again
    rw [if_pos hr, if_pos (List.mem_cons.mpr (.inl hr)), hr]
    split <;> rfl
  · rw [if_neg hr]
    simp only [List.mem_cons, hr, false_or]

/-- When the loop gets through, it has set the UUIDs of the users it has read. -/
theorem updateUuids_some {t : EigenTable} {columns : List ℤ} {d' : Database} (k : ℕ)
    (ht : d.eigenInfo = some t) (hformat : t.format = .current)
    (h : (updateUuids calls uuidOf k columns).run d = (some (), d')) :
    ∃ t', d' = { d with eigenInfo := some t' } ∧ t'.format = .current ∧
      t'.table.rows = t.table.rows.map
        (EigenRow.setUuidIn uuidOf ((reached calls k columns).map columnInt)) := by
  induction columns generalizing k d t with
  | nil =>
    -- all users were read
    obtain rfl : d = d' := (Prod.mk.inj h).2
    exact ⟨t, by rw [← ht], hformat, (map_setUuidIn_nil _).symm⟩
  | cons column columns ih =>
    cases hstep : calls.step k with
    | true =>
      -- the step that reads a user failed, and the loop ends as if there were none
      rw [updateUuids_step hstep] at h
      obtain rfl : d = d' := (Prod.mk.inj h).2
      refine ⟨t, by rw [← ht], hformat, ?_⟩
      rw [reached, if_pos hstep, List.map_nil, map_setUuidIn_nil]
    | false =>
      -- the user is read as an `int`, and gets the UUID of that
      obtain ⟨t₁, hset, hformat₁, hrows₁⟩ :=
        Database.setUuid_spec ht hformat (columnInt column) (uuidOf (columnInt column))
      rw [updateUuids_cons hstep hset] at h
      cases hupdate : calls.update k with
      | true =>
        -- the update failed, which the loop does not get through
        rw [hupdate, if_pos rfl] at h
        cases h
      | false =>
        rw [hupdate, if_neg Bool.false_ne_true] at h
        -- it went well, and the rest of the users follow
        obtain ⟨t', hd', hformat', hrows'⟩ := ih (k + 1) rfl hformat₁ h
        refine ⟨t', hd', hformat', ?_⟩
        -- a row takes the UUID of the first or of one of the rest
        rw [hrows', hrows₁, List.map_map, reached, if_neg (by simp [hstep]), List.map_cons]
        exact List.map_congr_left fun r _ =>
          (EigenRow.setUuidIn_cons (columnInt column) _ r).symm

/-- Every user is reached exactly if no step before the last user fails. -/
theorem forall_mem_reached_iff {uids : List ℤ} (k : ℕ) (hnodup : uids.Nodup) :
    (∀ uid ∈ uids, uid ∈ reached calls k uids) ↔
      ∀ i < uids.length, calls.step (k + i) = false := by
  -- by induction on the users, from whichever step on
  induction uids generalizing k with
  | nil => exact iff_of_true nofun fun i hi => absurd hi (Nat.not_lt_zero i)
  | cons uid uids ih =>
    obtain ⟨hnot, hnodup⟩ := List.nodup_cons.mp hnodup
    rw [reached]
    -- the step fails here, and the first user is not reached
    cases hstep : calls.step k with
    | true =>
      rw [if_pos rfl]
      refine iff_of_false (fun h => List.not_mem_nil (h uid List.mem_cons_self)) fun h => ?_
      have hfirst := h 0 (Nat.succ_pos _)
      rw [Nat.add_zero, hstep] at hfirst
      cases hfirst
    | false =>
      rw [if_neg Bool.false_ne_true]
      -- the first user is reached, and is none of the others
      have hothers : (∀ uid' ∈ uid :: uids, uid' ∈ uid :: reached calls (k + 1) uids) ↔
          ∀ uid' ∈ uids, uid' ∈ reached calls (k + 1) uids := by
        constructor
        · intro h uid' huid'
          refine (List.mem_cons.mp (h uid' (List.mem_cons_of_mem _ huid'))).resolve_left ?_
          rintro rfl
          exact hnot huid'
        · intro h uid' huid'
          rcases List.mem_cons.mp huid' with rfl | huid'
          · exact List.mem_cons_self
          · exact List.mem_cons_of_mem _ (h uid' huid')
      rw [hothers, ih (k + 1) hnodup]
      constructor
      · intro h i hi
        cases i with
        | zero => exact hstep
        | succ i =>
          have hi := h i (Nat.lt_of_succ_lt_succ hi)
          rwa [Nat.add_assoc, Nat.add_comm 1 i] at hi
      · -- and the other way round
        intro h i hi
        rw [Nat.add_assoc, Nat.add_comm 1 i]
        exact h (i + 1) (Nat.succ_lt_succ hi)

theorem reached_subset (k : ℕ) (columns : List ℤ) : reached calls k columns ⊆ columns := by
  induction columns generalizing k with
  | nil => exact List.Subset.refl _
  | cons column columns ih =>
    rw [reached]
    split
    · exact List.nil_subset _
    · exact List.cons_subset_cons column (ih (k + 1))

/-- Every user is updated exactly if every uid is read back, and no step before the last user
fails. -/
theorem forall_mem_map_reached_iff {uids : List ℤ} (hnodup : uids.Nodup) :
    (∀ uid ∈ uids, uid ∈ (reached calls 0 uids).map columnInt) ↔
      (∀ k < uids.length, calls.step k = false) ∧ ∀ uid ∈ uids, IsCInt uid := by
  have hreached := @forall_mem_reached_iff calls uids 0 hnodup
  simp only [Nat.zero_add] at hreached
  rw [← hreached]
  have hmap : (∀ uid ∈ uids, IsCInt uid) →
      (reached calls 0 uids).map columnInt = reached calls 0 uids := fun hints =>
    (List.map_congr_left fun uid huid =>
      columnInt_of_isCInt (hints uid (reached_subset 0 uids huid))).trans (List.map_id _)
  constructor
  · intro h
    have hints : ∀ uid ∈ uids, IsCInt uid := by
      intro uid huid
      obtain ⟨column, -, rfl⟩ := List.mem_map.mp (h uid huid)
      exact isCInt_columnInt column
    rw [hmap hints] at h
    exact ⟨h, hints⟩
  · rintro ⟨h, hints⟩
    rwa [hmap hints]

end Loop

/-! ### The script of the upgrade -/

section UpgradeScript

variable {calls : UpgradeCalls} {uuidOf : ℤ → String} {d d' : Database}

/-- Neither table is there, or both are. -/
theorem renameEigenInfo_eq_none (h : ¬ d.Renamable) : d.renameEigenInfo = none := by
  unfold Database.renameEigenInfo
  split
  · rename_i t ht hversion000
    exact absurd ⟨by rw [ht]; rfl, hversion000⟩ h
  · rfl

theorem Database.Renamable.exists_table (h : d.Renamable) : ∃ t, d.eigenInfo = some t ∧
    d.renameEigenInfo = some ⟨none, some t, d.databaseFormat⟩ := by
  obtain ⟨t, ht⟩ := Option.isSome_iff_exists.mp h.1
  refine ⟨t, ht, ?_⟩
  rw [Database.renameEigenInfo, ht, h.2]

/-- The version row is written unless one of the three calls fails. -/
theorem internalCreateDatebaseInfo_isSome_iff (format : FormatCalls) :
    ((internalCreateDatebaseInfo format).run d).1.isSome ↔ format = .succeed := by
  obtain ⟨create, prepare, insert⟩ := format
  cases create <;> cases prepare <;> cases insert <;>
    simp [internalCreateDatebaseInfo, Script.run_bind, Script.statement, FormatCalls.succeed,
      Database.createDatabaseFormat, Database.prepareFormat, Database.insertFormat]

theorem internalCreateDatebaseInfo_succeed :
    (internalCreateDatebaseInfo .succeed).run d =
      (some (), { d with databaseFormat := some (d.databaseFormat.getD [] ++ [currentVersion]) }) :=
  rfl

variable (uuidOf) in
/-- The migration as far as the loop: the new table has the old rows. -/
theorem migrationScript_eq (t : EigenTable) (versions : Option (List FormatVersion))
    (hcreate : calls.create = false) (hinsert : calls.insert = false)
    (hprepare : calls.prepare = false) :
    ∃ t', t'.format = .current ∧ t'.table.rows = t.table.rows.map EigenRow.withoutUuid ∧
      (migrationScript calls uuidOf).run ⟨none, some t, versions⟩ =
        (updateUuids calls uuidOf 0 t.selectUids >>= fun _ =>
          internalCreateDatebaseInfo calls.format).run ⟨some t', some t, versions⟩ := by
  obtain ⟨t', hinsertRows, hformat', hrows'⟩ := EigenTable.insertRows_empty t
  have hempty : Database.createEigenInfo ⟨none, some t, versions⟩ =
      some ⟨some .empty, some t, versions⟩ := rfl
  have hmigrate : Database.migrateRows ⟨some .empty, some t, versions⟩ =
      some ⟨some t', some t, versions⟩ := by
    simp [Database.migrateRows, hinsertRows]
  have hprepared : Database.prepareUids ⟨some t', some t, versions⟩ =
      some ⟨some t', some t, versions⟩ := rfl
  have huids : Database.uids ⟨some t', some t, versions⟩ = t.selectUids := by
    have hkeys : Grouping.keys EigenRow.uid t'.table.rows =
        Grouping.keys EigenRow.uid t.table.rows := by
      rw [hrows', Grouping.keys, List.map_map]
      rfl
    rw [Database.uids, Option.map_some, Option.getD_some, EigenTable.selectUids, hkeys]
    rfl
  refine ⟨t', hformat', hrows', ?_⟩
  rw [migrationScript, hinsert, hprepare, internalCreateEigenInfoTable, hcreate]
  -- one statement after the other
  refine (Script.bind_of_some (Script.statement_some hempty)).trans ?_
  refine (Script.bind_of_some (Script.statement_some hmigrate)).trans ?_
  refine (Script.bind_of_some (Script.statement_some hprepared)).trans ?_
  rw [Script.run_query_bind, huids]

/-- The migration leaves the old table alone. -/
theorem keeps_eigenInfoVersion000 (t : Option EigenTable) :
    Script.Keeps (fun d => d.eigenInfoVersion000 = t) (migrationScript calls uuidOf) := by
  -- each `UPDATE` writes the new table only
  have hloop (columns : List ℤ) (k : ℕ) :
      Script.Keeps (fun d => d.eigenInfoVersion000 = t) (updateUuids calls uuidOf k columns) := by
    induction columns generalizing k with
    | nil => exact .pure ()
    | cons column columns ih =>
      rw [updateUuids]
      split
      · exact .pure ()
      · refine .bind (.statement fun d d' hd hset => ?_) fun _ => ih (k + 1)
        simp only [Database.setUuid, Option.bind_eq_bind, Option.bind_eq_some_iff,
          Option.some.injEq] at hset
        obtain ⟨t₀, -, t₁, -, rfl⟩ := hset
        exact hd
  -- the new table is created, and gets the rows of the old one
  refine .bind (.statement fun d d' hd h => ?_) fun _ => ?_
  · obtain rfl := Option.some.inj h
    exact hd
  refine .bind (.statement fun d d' hd h => ?_) fun _ => ?_
  · simp only [Database.migrateRows, Option.bind_eq_bind, Option.bind_eq_some_iff,
      Option.some.injEq] at h
    obtain ⟨dst, -, src, -, t', -, rfl⟩ := h
    exact hd
  -- the query of the users, whose UUIDs are then set
  refine .bind (.statement fun d d' hd h => ?_) fun _ => .bind (.query _) fun columns =>
    .bind (hloop columns 0) fun _ => ?_
  · obtain ⟨-, -, rfl⟩ := Option.map_eq_some_iff.mp h
    exact hd
  -- the version row
  refine .bind (.statement fun d d' hd h => ?_) fun _ => .bind (.statement fun d d' hd h => ?_)
    fun _ => .statement fun d d' hd h => ?_
  · obtain rfl := Option.some.inj h
    exact hd
  · obtain ⟨-, -, rfl⟩ := Option.map_eq_some_iff.mp h
    exact hd
  · obtain ⟨-, -, rfl⟩ := Option.map_eq_some_iff.mp h
    exact hd

/-- The migration gets through if no call that is checked fails. -/
theorem migrationScript_isSome_iff (t : EigenTable) (versions : Option (List FormatVersion)) :
    ((migrationScript calls uuidOf).run ⟨none, some t, versions⟩).1.isSome ↔
      calls.create = false ∧ calls.insert = false ∧ calls.prepare = false ∧
        UpdatesSucceed calls 0 t.selectUids.length ∧ calls.format = .succeed := by
  by_cases hflags : calls.create = false ∧ calls.insert = false ∧ calls.prepare = false
  · obtain ⟨hcreate, hinsert, hprepare⟩ := hflags
    obtain ⟨t', hformat', -, heq⟩ := migrationScript_eq uuidOf t versions hcreate
      hinsert hprepare
    have hloop : ((updateUuids calls uuidOf 0 t.selectUids).run
        ⟨some t', some t, versions⟩).1.isSome ↔
        UpdatesSucceed calls 0 t.selectUids.length :=
      updateUuids_isSome_iff 0 rfl hformat'
    rw [heq, Script.run_bind, ← hloop]
    rcases (updateUuids calls uuidOf 0 t.selectUids).run ⟨some t', some t, versions⟩ with
      ⟨_ | u, d'⟩
    · simp
    · simp only [internalCreateDatebaseInfo_isSome_iff]
      simp [hcreate, hinsert, hprepare]
  · -- one of the three calls in front of the loop stops the script
    refine iff_of_false (fun hsome => ?_) fun h => hflags ⟨h.1, h.2.1, h.2.2.1⟩
    obtain ⟨_, d', hrun⟩ := Script.exists_of_isSome hsome
    obtain ⟨_, d₁, hcreate, h⟩ := Script.bind_eq_some.mp hrun
    obtain ⟨_, d₂, hinsert, h⟩ := Script.bind_eq_some.mp h
    obtain ⟨_, d₃, hprepare, -⟩ := Script.bind_eq_some.mp h
    exact hflags ⟨(Script.statement_eq_some.mp hcreate).1, (Script.statement_eq_some.mp hinsert).1,
      (Script.statement_eq_some.mp hprepare).1⟩

/-- What the migration leaves when it gets through. -/
theorem migrationScript_some {t : EigenTable} {versions : Option (List FormatVersion)}
    (h : (migrationScript calls uuidOf).run ⟨none, some t, versions⟩ = (some (), d')) :
    ∃ t', t'.format = .current ∧
      t'.table.rows = (t.table.rows.map EigenRow.withoutUuid).map
        (EigenRow.setUuidIn uuidOf ((reached calls 0 t.selectUids).map columnInt)) ∧
      d' = ⟨some t', some t, some (versions.getD [] ++ [currentVersion])⟩ := by
  have hsome : ((migrationScript calls uuidOf).run ⟨none, some t, versions⟩).1.isSome := by
    rw [h]
    rfl
  obtain ⟨hcreate, hinsert, hprepare, -, hformat⟩ :=
    (migrationScript_isSome_iff t versions).mp hsome
  obtain ⟨t₀, hformat₀, hrows₀, heq⟩ := migrationScript_eq uuidOf t versions hcreate
    hinsert hprepare
  rw [heq] at h
  obtain ⟨_, d₁, hloop, hinfo⟩ := Script.bind_eq_some.mp h
  obtain ⟨t', rfl, hformat', hrows'⟩ :=
    updateUuids_some 0 rfl hformat₀ hloop
  rw [hformat, internalCreateDatebaseInfo_succeed] at hinfo
  refine ⟨t', hformat', ?_, (Prod.mk.inj hinfo).2.symm⟩
  rw [hrows', hrows₀]

/-- A script that stops at the `ALTER` has changed nothing. -/
theorem upgradeScript_of_not (h : ¬ (d.Renamable ∧ calls.alter = false)) :
    (upgradeScript calls uuidOf).run d = (none, d) := by
  refine Script.bind_of_none ?_
  by_cases hrenamable : d.Renamable
  · rw [Bool.eq_true_of_not_eq_false fun halter => h ⟨hrenamable, halter⟩]
    exact Script.statement_true _ d
  · exact Script.statement_none _ (renameEigenInfo_eq_none hrenamable)

variable (uuidOf) in
/-- One that gets past it goes on with the migration. -/
theorem upgradeScript_of_alter (h : d.Renamable) (halter : calls.alter = false) :
    ∃ t, d.eigenInfo = some t ∧ (upgradeScript calls uuidOf).run d =
      (migrationScript calls uuidOf).run ⟨none, some t, d.databaseFormat⟩ := by
  obtain ⟨t, ht, hrename⟩ := h.exists_table
  refine ⟨t, ht, ?_⟩
  rw [upgradeScript, halter]
  exact Script.bind_of_some (Script.statement_some hrename)

theorem Database.uids_eq {t : EigenTable} (ht : d.eigenInfo = some t) : d.uids = t.selectUids := by
  rw [Database.uids, ht]
  rfl

/-- The script gets through if the old table can be renamed and no call that is checked fails. -/
theorem upgradeScript_isSome_iff :
    ((upgradeScript calls uuidOf).run d).1.isSome ↔
      d.Renamable ∧ calls.NoneFails d.uids.length := by
  by_cases hpast : d.Renamable ∧ calls.alter = false
  · obtain ⟨t, ht, heq⟩ := upgradeScript_of_alter uuidOf hpast.1 hpast.2
    rw [heq, migrationScript_isSome_iff, Database.uids_eq ht, and_iff_right hpast.1]
    constructor
    · rintro ⟨hcreate, hinsert, hprepare, hupdate, hformat⟩
      refine ⟨hpast.2, hcreate, hinsert, hprepare, fun k hk hsteps => ?_, hformat⟩
      simpa using hupdate k hk (by simpa using hsteps)
    · intro h
      refine ⟨h.create, h.insert, h.prepare, fun k hk hsteps => ?_, h.format⟩
      simpa using h.update k hk (by simpa using hsteps)
  · rw [upgradeScript_of_not hpast]
    exact iff_of_false nofun fun h => hpast ⟨h.1, h.2.alter⟩

/-- Wherever the script stops after the `ALTER`, the database is not the old one any more. -/
theorem upgradeScript_snd_ne (h : d.Renamable) (halter : calls.alter = false) :
    ((upgradeScript calls uuidOf).run d).2 ≠ d := by
  obtain ⟨t, -, heq⟩ := upgradeScript_of_alter uuidOf h halter
  intro hsame
  have hkept : ((migrationScript calls uuidOf).run
      ⟨none, some t, d.databaseFormat⟩).2.eigenInfoVersion000 = some t :=
    keeps_eigenInfoVersion000 (some t) _ rfl
  rw [← heq, hsame, h.2] at hkept
  cases hkept

/-- A script that gets through leaves a current database, unless a step of the query has failed
before the last user or a uid is not read back. -/
theorem isCurrent_upgradeScript_iff (h000 : d.Format000)
    (hsome : ((upgradeScript calls uuidOf).run d).1.isSome) :
    ((upgradeScript calls uuidOf).run d).2.IsCurrent ↔
      (∀ k < d.uids.length, calls.step k = false) ∧ ∀ uid ∈ d.uids, IsCInt uid := by
  -- what the table was before, and what the script makes of it
  obtain ⟨hrenamable, hnone⟩ := upgradeScript_isSome_iff.mp hsome
  obtain ⟨t, ht, heq⟩ := upgradeScript_of_alter uuidOf hrenamable hnone.alter
  obtain ⟨_, d', hrun⟩ := Script.exists_of_isSome hsome
  obtain ⟨t', hformat', hrows', rfl⟩ := migrationScript_some (heq.symm.trans hrun)
  have hnodup : t.selectUids.Nodup :=
    (List.perm_insertionSort _ _).nodup_iff.mpr (Grouping.nodup_keys _ _)
  -- every row has a UUID exactly if every user has been reached under his own uid
  have huuids : (∀ r ∈ t'.table.rows, r.uuid ≠ none) ↔
      ∀ uid ∈ t.selectUids, uid ∈ (reached calls 0 t.selectUids).map columnInt := by
    rw [hrows']
    constructor
    · intro h uid huid
      obtain ⟨r, hr, rfl⟩ := EigenTable.mem_selectUids.mp huid
      -- the UUID of the new row shows that its user has been reached
      have hset := h _ (List.mem_map_of_mem (List.mem_map_of_mem hr))
      by_contra hnot
      rw [EigenRow.setUuidIn, EigenRow.withoutUuid_uid, if_neg hnot] at hset
      exact hset rfl
    · intro h r' hr'
      obtain ⟨r₀, hr₀, rfl⟩ := List.mem_map.mp hr'
      obtain ⟨r, hr, rfl⟩ := List.mem_map.mp hr₀
      rw [EigenRow.setUuidIn, EigenRow.withoutUuid_uid,
        if_pos (h r.uid (EigenTable.mem_selectUids.mpr ⟨r, hr, rfl⟩))]
      exact Option.some_ne_none _
  rw [hrun, Database.uids_eq ht]
  rw [← forall_mem_map_reached_iff hnodup, ← huuids]
  -- the new table is the current one of the database
  constructor
  · rintro ⟨-, t'', ht'', -, h⟩
    obtain rfl := Option.some.inj ht''
    exact h
  · intro h
    refine ⟨?_, t', rfl, hformat', h⟩
    change ((d.databaseFormat.getD [] ++ [currentVersion]).head?) = some currentVersion
    rw [h000]
    rfl

/-! ### All or nothing -/

variable (calls uuidOf) in
/-- The result tells whether the script has got through; the rest is the transaction. -/
theorem internalUpgradeDbFormatFromNull_eq (d : Database) :
    ((internalUpgradeDbFormatFromNull calls uuidOf ⟨d, none⟩).1 =
        if ((upgradeScript calls uuidOf).run d).1.isSome then 0 else -1) ∧
      (internalUpgradeDbFormatFromNull calls uuidOf ⟨d, none⟩).2.committed =
        if calls.begin ∨ ((upgradeScript calls uuidOf).run d).1.isSome ∧ calls.commit = false then
          ((upgradeScript calls uuidOf).run d).2
        else d := by
  rw [← transact_fst calls.begin calls.commit calls.rollback (upgradeScript calls uuidOf) d]
  have hcommitted :=
    committed_transact calls.begin calls.commit calls.rollback (upgradeScript calls uuidOf) d
  rw [← transact_fst calls.begin calls.commit calls.rollback (upgradeScript calls uuidOf) d]
    at hcommitted
  rw [internalUpgradeDbFormatFromNull]
  rcases htransact : transact calls.begin calls.commit calls.rollback (upgradeScript calls uuidOf)
      ⟨d, none⟩ with ⟨_ | u, c'⟩
  · rw [htransact] at hcommitted
    exact ⟨rfl, hcommitted⟩
  · rw [htransact] at hcommitted
    exact ⟨rfl, hcommitted⟩

/-- A database of format 0.0.0 is not current. -/
theorem Database.Format000.not_isCurrent (h000 : d.Format000) : ¬ d.IsCurrent := by
  rintro ⟨hversion, -⟩
  obtain ⟨versions, hversions, hhead⟩ := Option.bind_eq_some_iff.mp hversion
  rw [Database.Format000, hversions] at h000
  rw [show versions = [] from h000] at hhead
  cases hhead

/-- **Exactly when the upgrade is all or nothing.** -/
theorem upgrade_allOrNothing_iff (calls : UpgradeCalls) (uuidOf : ℤ → String) (d : Database)
    (h000 : d.Format000) :
    AllOrNothing d (internalUpgradeDbFormatFromNull calls uuidOf ⟨d, none⟩) ↔ calls.Safe d := by
  obtain ⟨hret, hcommitted⟩ := internalUpgradeDbFormatFromNull_eq calls uuidOf d
  rw [AllOrNothing, hret, hcommitted]
  cases hsome : ((upgradeScript calls uuidOf).run d).1.isSome with
  | true =>
    -- the result is 0, and what is committed has to be current
    obtain ⟨hrenamable, hnone⟩ := upgradeScript_isSome_iff.mp hsome
    have hcurrent := isCurrent_upgradeScript_iff h000 hsome
    simp only [if_true, true_and, forall_const, lt_irrefl, false_imp_iff, and_true]
    constructor
    · -- only a `COMMIT` that fails takes back what the script has done, and only in a transaction
      intro h
      have hpast : calls.begin = true ∨ calls.commit = false := by
        by_contra hnot
        rw [if_neg hnot] at h
        exact h000.not_isCurrent h
      rw [if_pos hpast, hcurrent] at h
      refine ⟨fun _ _ _ => hnone, fun hbegin _ _ => ?_, fun _ _ => h.1, fun _ _ => h.2⟩
      exact hpast.resolve_left (by simp [hbegin])
    · intro h
      have hpast : calls.begin = true ∨ calls.commit = false := by
        cases hbegin : calls.begin with
        | true => exact .inl rfl
        | false => exact .inr (h.commit hbegin hrenamable hnone)
      rw [if_pos hpast, hcurrent]
      exact ⟨h.step hrenamable hnone, h.uids hrenamable hnone⟩
  | false =>
    -- the result is -1, and what is committed has to be the old database
    have hfails : ¬ (d.Renamable ∧ calls.NoneFails d.uids.length) := by
      intro h
      rw [← upgradeScript_isSome_iff, hsome] at h
      exact Bool.false_ne_true h
    simp only [Bool.false_eq_true, false_and, or_false, if_false, false_imp_iff,
      true_and, Int.reduceNeg, Int.reduceLT, forall_const, neg_eq_zero, one_ne_zero]
    constructor
    · intro h
      refine ⟨fun hbegin hrenamable halter => ?_, fun _ hrenamable hnone => ?_,
        fun hrenamable hnone => absurd ⟨hrenamable, hnone⟩ hfails,
        fun hrenamable hnone => absurd ⟨hrenamable, hnone⟩ hfails⟩
      · rw [if_pos hbegin] at h
        exact absurd h (upgradeScript_snd_ne hrenamable halter)
      · exact absurd ⟨hrenamable, hnone⟩ hfails
    · intro h
      cases hbegin : calls.begin with
      | false => rfl
      | true =>
        -- without a transaction what the script has done stays: it has to fail before it writes
        rw [if_pos rfl]
        by_cases hpast : d.Renamable ∧ calls.alter = false
        · exact absurd ⟨hpast.1, h.begin hbegin hpast.1 hpast.2⟩ hfails
        · rw [upgradeScript_of_not hpast]

end UpgradeScript

/-- A table of version 0.0.0 with one sample. -/
def oldTable : EigenTable where
  format := .version000
  table :=
    { rows := [⟨1, 1000, none, 0, "uru4000", 0, "a", 0, []⟩]
      seq := 1
      ids_nodup := by decide
      ids_le_seq := by decide }
  uuid_none := by simp

/-- The database of version 0.0.0 with that table. -/
def oldDatabase : Database := ⟨some oldTable, none, none⟩

/-- No call fails. -/
theorem upgrade_allOrNothing_succeed :
    AllOrNothing oldDatabase
      (internalUpgradeDbFormatFromNull .succeed (fun _ => "") ⟨oldDatabase, none⟩) :=
  (upgrade_allOrNothing_iff .succeed (fun _ => "") oldDatabase rfl).mpr
    ⟨nofun, fun _ _ _ => rfl, fun _ _ _ _ => rfl, fun _ _ => by decide⟩

/-- The `COMMIT` fails: the result is 0, and the committed database is the old one. -/
theorem not_allOrNothing_commit :
    ¬ AllOrNothing oldDatabase (internalUpgradeDbFormatFromNull
      { UpgradeCalls.succeed with commit := true } (fun _ => "") ⟨oldDatabase, none⟩) := by
  intro h
  have hcurrent : oldDatabase.IsCurrent := h.1 (by decide)
  have h000 : oldDatabase.Format000 := rfl
  exact h000.not_isCurrent hcurrent

end BiometricAuth
