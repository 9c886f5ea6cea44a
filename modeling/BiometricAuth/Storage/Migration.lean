import BiometricAuth.Storage.UserFeatures
import BiometricAuth.Storage.Upgrade

/-!
# What the upgrade does to the data

When no call fails, the upgrade of a database of version 0.0.0 gives every row the current UUID
of its user and changes nothing else in it. A row and its feature take their new UUID together
(`EigenRow.withUuid`, `FeatureKey.withUuid`), and the UUID is a function of the user, so the
order of the rows and their grouping into features stay the same.

The query of the users and the reader go through `sqlite3_column_int`, so all of this is about
tables of `int`s.

Main result: `bioStoCheckAndUpgradeDbFormat_migrates_iff` — the data are preserved, the features
listed are those of the old table, and a second call changes nothing, exactly if the numbers of
the old table are `int`s.
-/

namespace BiometricAuth

open Transaction

/-! ### The current UUIDs -/

section WithUuid

variable (uuidOf : ℤ → String)

/-- A row with the current UUID of its user. -/
def EigenRow.withUuid (r : EigenRow) : EigenRow := { r with uuid := some (uuidOf r.uid) }

/-- A feature with the current UUID of its user. -/
def FeatureKey.withUuid (k : FeatureKey) : FeatureKey := { k with uuid := some (uuidOf k.uid) }

variable {uuidOf}

theorem EigenRow.key_withUuid (r : EigenRow) :
    (r.withUuid uuidOf).key = r.key.withUuid uuidOf := rfl

/-- Features without UUIDs keep their order, for the UUID depends on the user alone. -/
theorem FeatureKey.withUuid_lt_iff {k k' : FeatureKey} (hk : k.uuid = none) (hk' : k'.uuid = none) :
    k.withUuid uuidOf < k'.withUuid uuidOf ↔ k < k' := by
  rw [FeatureKey.lt_def, FeatureKey.lt_def]
  simp only [toTuple, withUuid, hk, hk', Prod.Lex.toLex_lt_toLex]
  refine or_congr_right (and_congr_right fun huid => ?_)
  -- the UUIDs are equal on both sides, and the rest of the key decides
  rw [huid]
  refine or_congr ?_ (and_congr_left' (iff_of_true rfl rfl))
  exact iff_of_false (@lt_irrefl (WithBot String) _ _) (@lt_irrefl (WithBot String) _ _)

theorem FeatureKey.withUuid_inj {k k' : FeatureKey} (hk : k.uuid = none) (hk' : k'.uuid = none) :
    k.withUuid uuidOf = k'.withUuid uuidOf ↔ k = k' := by
  refine ⟨fun h => ?_, congrArg _⟩
  obtain ⟨uid, uuid, bioType, driver, index⟩ := k
  obtain ⟨uid', uuid', bioType', driver', index'⟩ := k'
  simp only [withUuid, FeatureKey.mk.injEq] at h hk hk' ⊢
  exact ⟨h.1, hk.trans hk'.symm, h.2.2⟩

/-- Rows without UUIDs keep their order. -/
theorem EigenRow.sortKey_withUuid_le_iff {r r' : EigenRow} (hr : r.uuid = none)
    (hr' : r'.uuid = none) :
    (r.withUuid uuidOf).sortKey ≤ (r'.withUuid uuidOf).sortKey ↔ r.sortKey ≤ r'.sortKey := by
  have hle : ∀ a b : EigenRow, a.sortKey ≤ b.sortKey ↔ a.key < b.key ∨ a.key = b.key ∧
      toLex (a.eigenIndexName, a.sampleNo) ≤ toLex (b.eigenIndexName, b.sampleNo) :=
    fun a b => Prod.Lex.toLex_le_toLex
  rw [hle, hle, key_withUuid, key_withUuid, FeatureKey.withUuid_lt_iff hr hr',
    FeatureKey.withUuid_inj hr hr']
  rfl

theorem FeatureQuery.selects_withUuid (q : FeatureQuery) (r : EigenRow) :
    q.selects (r.withUuid uuidOf) = q.selects r := by
  rw [Bool.eq_iff_iff, selects_iff, selects_iff]
  rfl

/-- What a query selects after the rows have taken their UUIDs. -/
theorem selectRows_withUuid {old new : EigenInfo} (hold : ∀ r ∈ old.rows, r.uuid = none)
    (hrows : new.rows = old.rows.map (EigenRow.withUuid uuidOf)) (q : FeatureQuery) :
    selectRows new q = (selectRows old q).map (EigenRow.withUuid uuidOf) := by
  have hfilter : (old.rows.map (EigenRow.withUuid uuidOf)).filter q.selects =
      (old.rows.filter q.selects).map (EigenRow.withUuid uuidOf) := by
    rw [List.filter_map]
    congr 1
    exact List.filter_congr fun r _ => q.selects_withUuid r
  rw [selectRows, selectRows, hrows, hfilter]
  refine (List.map_insertionSort _ _ _ _ fun r hr r' hr' => ?_).symm
  exact (EigenRow.sortKey_withUuid_le_iff (hold r (List.mem_filter.mp hr).1)
    (hold r' (List.mem_filter.mp hr').1)).symm

/-- Features do not show their UUIDs. -/
theorem storedFeatures_withUuid {rows : List EigenRow} (hrows : ∀ r ∈ rows, r.uuid = none) :
    (Grouping.groups EigenRow.key (rows.map (EigenRow.withUuid uuidOf))).map storedFeature =
      (Grouping.groups EigenRow.key rows).map storedFeature := by
  have hgroups : Grouping.groups EigenRow.key (rows.map (EigenRow.withUuid uuidOf)) =
      (Grouping.groups EigenRow.key rows).map
        fun p => (p.1.withUuid uuidOf, p.2.map (EigenRow.withUuid uuidOf)) := by
    refine Grouping.groups_map (fun r _ => EigenRow.key_withUuid r) fun r hr r' hr' h => ?_
    exact (FeatureKey.withUuid_inj (hrows r hr) (hrows r' hr')).mp h
  rw [hgroups, List.map_map]
  refine List.map_congr_left fun p _ => ?_
  simp only [Function.comp_apply, storedFeature, featureOf, List.map_map, List.head?_map,
    Option.map_map]
  rfl

end WithUuid

/-! ### What the reader lists -/

section Reader

variable {uuidOf : ℤ → String} {t t' : EigenTable}

/-- The features of the old table, which has no UUIDs to look at. -/
def oldFeatures (t : EigenTable) (q : FeatureQuery) : List FeatureInfo :=
  (Grouping.groups EigenRow.key (selectRows t.table q)).map storedFeature

/-- They are the ones documented of the new table, in which every row is current. -/
theorem oldFeatures_eq (hformat : t.format = .version000)
    (hrows : t'.table.rows = t.table.rows.map (EigenRow.withUuid uuidOf)) (q : FeatureQuery) :
    currentRows uuidOf t'.table q = selectRows t'.table q ∧
      currentFeatures uuidOf t'.table q = oldFeatures t q := by
  have hselect := selectRows_withUuid (t.uuid_none hformat) hrows q
  have hall : currentRows uuidOf t'.table q = selectRows t'.table q := by
    refine List.filter_eq_self.mpr fun r hr => ?_
    rw [hselect] at hr
    obtain ⟨r', -, rfl⟩ := List.mem_map.mp hr
    simp [EigenRow.isCurrent, EigenRow.withUuid]
  refine ⟨hall, ?_⟩
  rw [currentFeatures_eq, hall, hselect,
    storedFeatures_withUuid fun r hr => t.uuid_none hformat r (mem_selectRows.mp hr).1]
  rfl

theorem FeatureQuery.readsWhole_withUuid (q : FeatureQuery) (r : EigenRow) :
    q.ReadsWhole (r.withUuid uuidOf) ↔ q.ReadsWhole r := by
  rw [ReadsWhole, ReadsWhole, columns_eq_self_iff, columns_eq_self_iff]
  rfl

/-- After the rows have taken their UUIDs, the reader lists the features of the old table exactly
if the rows selected come through whole. -/
theorem bioStoGetFeatureInfo_withUuid (hformat : t.format = .version000)
    (hcodes : ∀ r ∈ t.table.rows, 0 ≤ r.uid ∧ 0 ≤ r.bioType)
    (hrows : t'.table.rows = t.table.rows.map (EigenRow.withUuid uuidOf)) (q : FeatureQuery) :
    bioStoGetFeatureInfo uuidOf t'.table q = some (oldFeatures t q) ↔
      ∀ r ∈ t.table.rows, q.selects r = true → q.ReadsWhole r := by
  obtain ⟨hall, hold⟩ := oldFeatures_eq hformat hrows q
  -- the rows that are selected are those of the old table
  have hselected : (∀ r ∈ selectRows t'.table q, q.ReadsWhole r) ↔
      ∀ r ∈ t.table.rows, q.selects r = true → q.ReadsWhole r := by
    rw [selectRows_withUuid (t.uuid_none hformat) hrows q, List.forall_mem_map]
    simp only [mem_selectRows, FeatureQuery.readsWhole_withUuid, and_imp]
  -- their UUIDs are those of their users
  have hnew : ∀ r ∈ selectRows t'.table q,
      0 ≤ r.uid ∧ 0 ≤ r.bioType ∧ r.uuid = some (uuidOf r.uid) := by
    intro r hr
    have hr := (mem_selectRows.mp hr).1
    rw [hrows] at hr
    obtain ⟨r', hr', rfl⟩ := List.mem_map.mp hr
    exact ⟨(hcodes r' hr').1, (hcodes r' hr').2, rfl⟩
  rw [← hselected, ← hold]
  constructor
  · -- a row that is not read whole is not listed as it was
    intro h r hr
    exact readsWhole_of_currentFeatures h (by rwa [hall])
  · intro h
    -- otherwise the cursor files each of them under its feature
    have hread := @readRows_of_uuid uuidOf uuidOf q _
      (selectRows_sorted t'.table q) (fun r hr => (h r hr).1) (fun r hr => (hnew r hr).2.1)
      (fun r hr => (hnew r hr).2.2) fun r hr huid => by
        have := (hnew r (List.mem_of_mem_head? hr)).1
        omega
    rw [currentFeatures_eq, storedFeatures_eq fun r hr => (h r (by rwa [← hall])).2]
    exact hread

/-- The numbers of the table are of type `int`, as far as a query can meet them: an `EigenIndex`
below every `int` is selected by none. -/
def EigenTable.Ints (t : EigenTable) : Prop :=
  ∀ r ∈ t.table.rows, IsCInt r.uid ∧
    (-2 ^ 31 ≤ r.eigenIndex → IsCInt r.bioType ∧ IsCInt r.eigenIndex ∧ IsCInt r.sampleNo)

/-- The features of the old table are listed, whatever is asked for, exactly of a table of
`int`s. -/
theorem listsOld_iff (hformat : t.format = .version000)
    (hcodes : ∀ r ∈ t.table.rows, 0 ≤ r.uid ∧ 0 ≤ r.bioType)
    (hrows : t'.table.rows = t.table.rows.map (EigenRow.withUuid uuidOf))
    (huids : ∀ r ∈ t.table.rows, IsCInt r.uid) :
    (∀ q : FeatureQuery, q.Ints →
      bioStoGetFeatureInfo uuidOf t'.table q = some (oldFeatures t q)) ↔ t.Ints := by
  simp only [bioStoGetFeatureInfo_withUuid hformat hcodes hrows]
  constructor
  · intro h r hr
    refine ⟨huids r hr, fun hle => ?_⟩
    -- the query for everything selects the row, and holds none of its columns to an argument
    obtain ⟨hcolumns, hno⟩ := h ⟨-1, -1, none, -2 ^ 31, -1⟩
      ⟨by decide, by decide, by decide, by decide⟩ r hr
      (FeatureQuery.selects_iff.mpr ⟨hle, .inl rfl, .inl rfl, nofun, .inl rfl⟩)
    obtain ⟨-, hbio, hidx⟩ := FeatureQuery.columns_eq_self_iff.mp hcolumns
    exact ⟨columnInt_eq_self_iff.mp hbio, columnInt_eq_self_iff.mp hidx, hno⟩
  · intro h q hq r hr hselects
    obtain ⟨hbio, hidx, hno⟩ := (h r hr).2
      (hq.indexStart.1.trans (FeatureQuery.selects_iff.mp hselects).1)
    exact ⟨FeatureQuery.columns_of_isCInt (huids r hr) hbio hidx, hno⟩

end Reader

/-! ### The upgrade without failures -/

section Succeed

variable {uuidOf : ℤ → String} {d : Database} {t : EigenTable}

theorem reached_succeed (k : ℕ) (uids : List ℤ) : reached .succeed k uids = uids := by
  induction uids generalizing k with
  | nil => rfl
  | cons uid uids ih =>
    rw [reached, ih]
    rfl

theorem noneFails_succeed (n : ℕ) : UpgradeCalls.succeed.NoneFails n :=
  ⟨rfl, rfl, rfl, rfl, fun _ _ _ => rfl, rfl⟩

/-- Every user is reached; a row takes the UUID of its user exactly if its uid is read back. -/
theorem map_setUuidIn_selectUids (t : EigenTable) :
    (t.table.rows.map EigenRow.withoutUuid).map
        (EigenRow.setUuidIn uuidOf (t.selectUids.map columnInt)) =
      t.table.rows.map (EigenRow.withUuid uuidOf) ↔ ∀ r ∈ t.table.rows, IsCInt r.uid := by
  rw [List.map_map, List.map_inj_left]
  refine forall₂_congr fun r hr => ?_
  rw [Function.comp_apply, EigenRow.setUuidIn, EigenRow.withoutUuid_uid]
  have hmem : r.uid ∈ t.selectUids.map columnInt ↔ IsCInt r.uid := by
    constructor
    · intro h
      obtain ⟨column, -, heq⟩ := List.mem_map.mp h
      exact heq ▸ isCInt_columnInt column
    · intro hint
      exact List.mem_map.mpr
        ⟨r.uid, EigenTable.mem_selectUids.mpr ⟨r, hr, rfl⟩, columnInt_of_isCInt hint⟩
  by_cases hint : IsCInt r.uid
  · rw [if_pos (hmem.mpr hint)]
    exact iff_of_true rfl hint
  · -- the row is left without a UUID
    rw [if_neg (mt hmem.mp hint)]
    exact iff_of_false (fun h => Option.some_ne_none _ (congrArg EigenRow.uuid h).symm) hint

variable (uuidOf) in
/-- What is committed when no call fails. -/
theorem internalUpgradeDbFormatFromNull_succeed (ht : d.eigenInfo = some t)
    (hversion000 : d.eigenInfoVersion000 = none) :
    ∃ t', t'.format = .current ∧
      t'.table.rows = (t.table.rows.map EigenRow.withoutUuid).map
        (EigenRow.setUuidIn uuidOf (t.selectUids.map columnInt)) ∧
      internalUpgradeDbFormatFromNull .succeed uuidOf ⟨d, none⟩ =
        (0, ⟨⟨some t', some t, some (d.databaseFormat.getD [] ++ [currentVersion])⟩, none⟩) := by
  -- the tables are there, and no statement fails
  have hrenamable : d.Renamable := ⟨by rw [ht]; rfl, hversion000⟩
  obtain ⟨t₀, ht₀, heq⟩ := upgradeScript_of_alter uuidOf hrenamable
    (show UpgradeCalls.succeed.alter = false from rfl)
  obtain rfl : t = t₀ := Option.some.inj (ht.symm.trans ht₀)
  have hsome : ((upgradeScript .succeed uuidOf).run d).1.isSome :=
    upgradeScript_isSome_iff.mpr ⟨hrenamable, noneFails_succeed _⟩
  -- so the script runs to its end
  obtain ⟨_, d', hrun⟩ := Script.exists_of_isSome hsome
  obtain ⟨t', hformat', hrows', rfl⟩ := migrationScript_some (heq.symm.trans hrun)
  rw [reached_succeed] at hrows'
  refine ⟨t', hformat', hrows', ?_⟩
  -- and is committed
  have htransact : transact UpgradeCalls.succeed.begin UpgradeCalls.succeed.commit
      UpgradeCalls.succeed.rollback (upgradeScript .succeed uuidOf) ⟨d, none⟩ = (some (), ⟨⟨some t',
        some t, some (d.databaseFormat.getD [] ++ [currentVersion])⟩, none⟩) := by
    refine (transact_none _ d).trans ?_
    rw [hrun]
    rfl
  rw [internalUpgradeDbFormatFromNull, htransact]

/-- A database of version 0.0.0, with its table of features. -/
structure Database.Version000 (d : Database) (t : EigenTable) : Prop where
  databaseFormat : d.Format000
  eigenInfo : d.eigenInfo = some t
  eigenInfoVersion000 : d.eigenInfoVersion000 = none
  format : t.format = .version000
  uid_nonneg : ∀ r ∈ t.table.rows, 0 ≤ r.uid
  bioType_nonneg : ∀ r ∈ t.table.rows, 0 ≤ r.bioType

theorem readFormat_of_format000 (h : d.Format000) : readFormat .succeed d = some ⟨0, 0, 0⟩ := by
  rw [Database.Format000] at h
  rw [readFormat]
  cases hversions : d.databaseFormat with
  | none => rfl
  | some versions =>
    rw [hversions] at h
    rw [show versions = [] from h]
    rfl

/-- The upgrade keeps the data, and is done once. -/
def Migrates (uuidOf : ℤ → String) (d : Database) (t : EigenTable) : Prop :=
  ∃ d' t', bioStoCheckAndUpgradeDbFormat .succeed uuidOf ⟨d, none⟩ = (0, ⟨d', none⟩) ∧
    d'.eigenInfo = some t' ∧ t'.format = .current ∧
    t'.table.rows = t.table.rows.map (fun r => { r with uuid := some (uuidOf r.uid) }) ∧
    d'.eigenInfoVersion000 = some t ∧
    (∀ q : FeatureQuery, q.Ints →
      bioStoGetFeatureInfo uuidOf t'.table q = some (oldFeatures t q)) ∧
    bioStoCheckAndUpgradeDbFormat .succeed uuidOf ⟨d', none⟩ = (0, ⟨d', none⟩)

/-- **The upgrade keeps the data exactly of a table of `int`s.** -/
theorem bioStoCheckAndUpgradeDbFormat_migrates_iff (uuidOf : ℤ → String) (d : Database)
    (t : EigenTable) (h : d.Version000 t) : Migrates uuidOf d t ↔ t.Ints := by
  obtain ⟨t₁, hformat₁, hrows₁, hupgrade⟩ :=
    internalUpgradeDbFormatFromNull_succeed uuidOf h.eigenInfo h.eigenInfoVersion000
  -- the table of versions has the new one only
  have hversions : d.databaseFormat.getD [] ++ [currentVersion] = [currentVersion] := by
    rw [h.databaseFormat]
    rfl
  rw [hversions] at hupgrade
  -- the check finds the old version, and upgrades
  have hcheck : bioStoCheckAndUpgradeDbFormat .succeed uuidOf ⟨d, none⟩ =
      (0, ⟨⟨some t₁, some t, some [currentVersion]⟩, none⟩) := by
    have hread : readFormat .succeed (⟨d, none⟩ : Conn Database).view = some ⟨0, 0, 0⟩ :=
      readFormat_of_format000 h.databaseFormat
    rw [bioStoCheckAndUpgradeDbFormat, hread]
    simp only [if_true]
    rw [show CheckCalls.succeed.upgrade = .succeed from rfl, hupgrade]
    rfl
  have hcodes : ∀ r ∈ t.table.rows, 0 ≤ r.uid ∧ 0 ≤ r.bioType :=
    fun r hr => ⟨h.uid_nonneg r hr, h.bioType_nonneg r hr⟩
  constructor
  · -- the lists agree, so every row comes through the reader
    rintro ⟨d', t', hcheck', ht', -, hrows', -, hlists, -⟩
    obtain rfl : (⟨some t₁, some t, some [currentVersion]⟩ : Database) = d' := by
      rw [hcheck] at hcheck'
      exact congrArg Conn.committed (Prod.mk.inj hcheck').2
    obtain rfl : t₁ = t' := Option.some.inj ht'
    exact (listsOld_iff h.format hcodes hrows'
      ((map_setUuidIn_selectUids t).mp (hrows₁.symm.trans hrows'))).mp hlists
  · -- every UUID is written under the uid it was read with
    intro hints
    have huids : ∀ r ∈ t.table.rows, IsCInt r.uid := fun r hr => (hints r hr).1
    have hrows' := hrows₁.trans ((map_setUuidIn_selectUids t).mpr huids)
    exact ⟨_, t₁, hcheck, rfl, hformat₁, hrows', rfl,
      (listsOld_iff h.format hcodes hrows' huids).mpr hints, rfl⟩

end Succeed

/-- `bioStoCheckAndUpgradeDbFormat_migrates_iff` on a table with one sample. -/
theorem migrates_oldTable : Migrates (fun _ => "8d4f") oldDatabase oldTable :=
  (bioStoCheckAndUpgradeDbFormat_migrates_iff (fun _ => "8d4f") oldDatabase oldTable
    ⟨rfl, rfl, rfl, rfl, by decide, by decide⟩).mpr (List.forall_mem_singleton.mpr
      ⟨by decide, fun _ => ⟨by decide, by decide, by decide⟩⟩)

/-- A table of version 0.0.0 with a sample of a user beyond the values of an `int`. -/
def wideUidTable : EigenTable where
  format := .version000
  table :=
    { rows := [⟨1, 3000000000, none, 0, "uru4000", 0, "a", 0, []⟩]
      seq := 1
      ids_nodup := by decide
      ids_le_seq := by decide }
  uuid_none := by simp

/-- The sample is left without a UUID. -/
theorem not_migrates_wideUid : ¬ ∀ (uuidOf : ℤ → String) (d : Database) (t : EigenTable),
    d.Version000 t → Migrates uuidOf d t := by
  intro h
  obtain ⟨d', t', hcheck, ht', -, hrows, -⟩ := h (fun _ => "8d4f") ⟨some wideUidTable, none, none⟩
    wideUidTable ⟨rfl, rfl, rfl, rfl, by decide, by decide⟩
  have hleft : (bioStoCheckAndUpgradeDbFormat .succeed (fun _ => "8d4f")
      ⟨⟨some wideUidTable, none, none⟩, none⟩).2.committed.eigenInfo.map (fun t => t.table.rows) =
        some wideUidTable.table.rows := by decide
  rw [hcheck] at hleft
  change d'.eigenInfo.map _ = _ at hleft
  rw [ht', Option.map_some, Option.some.injEq, hrows] at hleft
  exact absurd hleft (by decide)

end BiometricAuth
