import BiometricAuth.Common.BioDev
import BiometricAuth.Storage.Writer

/-!
# Renaming a feature: `bio_comm_feature_rename_by_db`

The framework's own rename reads the features with the wanted uid and index and
updates the rows of their samples one after the other. An update sets all the
columns of the key again, and to what they are (`EigenRow.Repeats`), so that it
changes the name only.

What a rename or a clean does to the table is summed up by `Shrinks`: rows may
go and names may change. Main results: `Shrinks.clean`, `Shrinks.renameSamples`
and, for tables in which the UUID goes by the user, `Shrinks.rename`.
-/

namespace BiometricAuth

/-! ### `bio_comm_feature_rename_by_db` -/

/-- The samples that are renamed: those of the listed features with the wanted
uid and index. -/
def renameTargets (infos : List FeatureInfo) (uid idx : ℤ) : List FeatureSample :=
  (infos.filter fun info => info.uid = uid ∧ info.index = idx).flatMap FeatureInfo.samples

/-- The body of the inner loop, on the store, `count` and `update_num`. -/
def renameSample (dev : BioDev) (uid idx : ℤ) (newName : String) (st : Store × ℤ × ℤ)
    (s : FeatureSample) : Store × ℤ × ℤ :=
  let (c, count, updateNum) := st
  let (ret, c) := bioStoUpdateFeatureInfoByDbid c s.dbid uid dev.biotype.code dev.deviceName idx
    newName s.no
  (c, count + 1, if ret = 0 then updateNum + 1 else updateNum)

/-- The two nested loops. -/
def renameInfos (dev : BioDev) (uid idx : ℤ) (newName : String) (infos : List FeatureInfo)
    (st : Store × ℤ × ℤ) : Store × ℤ × ℤ :=
  infos.foldl (fun st info =>
    if info.uid = uid ∧ info.index = idx then
      info.samples.foldl (renameSample dev uid idx newName) st
    else st) st

/-- `bio_comm_feature_rename_by_db`: the number of samples that could not be
renamed; `none` when reading the list crashes. -/
def bioCommFeatureRenameByDb (uuidOf : ℤ → String) (c : Store) (dev : BioDev) (uid idx : ℤ)
    (newName : String) : Option (ℤ × Store) := do
  let infos ← bioStoGetFeatureInfo uuidOf c.db (dev.query uid idx idx)
  let (c, count, updateNum) := renameInfos dev uid idx newName infos (c, 0, 0)
  some (count - updateNum, c)

/-- The nested loops update the targets one after the other. -/
theorem renameInfos_eq (dev : BioDev) (uid idx : ℤ) (newName : String)
    (infos : List FeatureInfo) (st : Store × ℤ × ℤ) :
    renameInfos dev uid idx newName infos st =
      (renameTargets infos uid idx).foldl (renameSample dev uid idx newName) st := by
  unfold renameInfos renameTargets
  induction infos generalizing st with
  | nil => rfl
  | cons info infos ih =>
    rw [List.foldl_cons, ih, List.filter_cons]
    by_cases h : info.uid = uid ∧ info.index = idx
    · simp [h, List.foldl_append]
    · simp [h]

/-- A row that the update of a sample would leave alone but for its name. -/
structure EigenRow.Repeats (r : EigenRow) (dev : BioDev) (uid idx sampleNo : ℤ) : Prop where
  uid : r.uid = uid
  bioType : r.bioType = dev.biotype.code
  driver : r.driver = dev.deviceName
  eigenIndex : r.eigenIndex = idx
  sampleNo : r.sampleNo = sampleNo

/-- An update that repeats what the row has changes its name only. -/
theorem update_renames {db : EigenInfo} {dev : BioDev} {uid idx sampleNo : ℤ} {dbid : ℕ}
    (newName : String)
    (h : ∀ r ∈ db.rows, r.id = dbid → r.Repeats dev uid idx sampleNo) :
    (db.update dbid uid dev.biotype.code dev.deviceName idx newName sampleNo).rows =
      db.rows.map fun r => if r.id = dbid then { r with eigenIndexName := newName } else r := by
  refine List.map_congr_left fun r hr => ?_
  by_cases hid : r.id = dbid
  · obtain ⟨h₁, h₂, h₃, h₄, h₅⟩ := h r hr hid
    rw [if_pos hid, if_pos hid, ← h₁, ← h₂, ← h₃, ← h₄, ← h₅]
  · rw [if_neg hid, if_neg hid]

/-! ### Tables that lose rows and names -/

/-- A row without its name. -/
def EigenRow.core (r : EigenRow) : ℕ × FeatureKey × ℤ × Bytes :=
  (r.id, r.key, r.sampleNo, r.eigenData)

theorem EigenRow.core_eq_iff {r r' : EigenRow} : r.core = r'.core ↔
    r.id = r'.id ∧ r.key = r'.key ∧ r.sampleNo = r'.sampleNo ∧ r.eigenData = r'.eigenData := by
  simp [core]

/-- The table has lost rows or been given other names, and nothing else. -/
structure Shrinks (db db' : EigenInfo) : Prop where
  seq : db'.seq = db.seq
  core : (db'.rows.map EigenRow.core).Sublist (db.rows.map EigenRow.core)

namespace Shrinks

variable {db db' : EigenInfo}

theorem refl (db : EigenInfo) : Shrinks db db := ⟨rfl, List.Sublist.refl _⟩

theorem trans {db₁ db₂ db₃ : EigenInfo} (h : Shrinks db₁ db₂) (h' : Shrinks db₂ db₃) :
    Shrinks db₁ db₃ := ⟨h'.seq.trans h.seq, h'.core.trans h.core⟩

theorem exists_row (h : Shrinks db db') {r' : EigenRow} (hr' : r' ∈ db'.rows) :
    ∃ r ∈ db.rows, r.id = r'.id ∧ r.key = r'.key ∧ r.sampleNo = r'.sampleNo ∧
      r.eigenData = r'.eigenData := by
  obtain ⟨r, hr, hcore⟩ := List.mem_map.mp (h.core.subset (List.mem_map_of_mem hr'))
  exact ⟨r, hr, EigenRow.core_eq_iff.mp hcore⟩

theorem keys (h : Shrinks db db') (hkeys : (db.rows.map EigenRow.key).Nodup) :
    (db'.rows.map EigenRow.key).Nodup := by
  have := h.core.map fun c : ℕ × FeatureKey × ℤ × Bytes => c.2.1
  rw [List.map_map, List.map_map] at this
  exact hkeys.sublist this

theorem delete (db : EigenInfo) (p : EigenRow → Bool) : Shrinks db (db.delete p) :=
  ⟨rfl, List.filter_sublist.map _⟩

/-- So does a clean, whether it fails or not. -/
theorem clean (c : Store) (q : FeatureQuery) :
    Shrinks c.db (bioStoCleanFeatureInfo c q).2.db := by
  rcases bioStoCleanFeatureInfo_cases c q with ⟨-, h⟩ | ⟨-, h⟩
  · rw [h]
    exact refl _
  · rw [h]
    exact delete _ _

/-- And so does an update that repeats what the row has. -/
theorem update {dev : BioDev} {uid idx sampleNo : ℤ} {dbid : ℕ} (newName : String)
    (h : ∀ r ∈ db.rows, r.id = dbid → r.Repeats dev uid idx sampleNo) :
    Shrinks db (db.update dbid uid dev.biotype.code dev.deviceName idx newName sampleNo) := by
  refine ⟨rfl, ?_⟩
  rw [update_renames newName h, List.map_map]
  have hcore : db.rows.map (EigenRow.core ∘ fun r =>
      if r.id = dbid then { r with eigenIndexName := newName } else r) =
      db.rows.map EigenRow.core := by
    refine List.map_congr_left fun r _ => ?_
    simp only [Function.comp_apply]
    split <;> rfl
  rw [hcore]

theorem renameSample {c : Store} {dev : BioDev} {uid idx : ℤ} (newName : String) (n m : ℤ)
    {s : FeatureSample} (h : ∀ r ∈ c.db.rows, r.id = s.dbid → r.Repeats dev uid idx s.no) :
    Shrinks c.db (BiometricAuth.renameSample dev uid idx newName (c, n, m) s).1.db := by
  rcases bioStoUpdateFeatureInfoByDbid_cases c s.dbid uid dev.biotype.code dev.deviceName idx
    newName s.no with hc | ⟨-, hc⟩
  · rw [BiometricAuth.renameSample, hc]
    exact refl _
  · rw [BiometricAuth.renameSample, hc]
    exact update newName h

/-- What a rename relies on survives the loss and the renaming of rows. -/
theorem repeats (hs : Shrinks db db') {dev : BioDev} {uid idx no : ℤ} {dbid : ℕ}
    (h : ∀ r ∈ db.rows, r.id = dbid → r.Repeats dev uid idx no) :
    ∀ r ∈ db'.rows, r.id = dbid → r.Repeats dev uid idx no := by
  intro r' hr' hid
  obtain ⟨r, hr, hrid, hkey, hno, -⟩ := hs.exists_row hr'
  obtain ⟨h₁, -, h₂, h₃, h₄⟩ := EigenRow.key_eq_iff.mp hkey
  have hrep := h r hr (hrid.trans hid)
  exact ⟨h₁ ▸ hrep.uid, h₂ ▸ hrep.bioType, h₃ ▸ hrep.driver, h₄ ▸ hrep.eigenIndex,
    hno ▸ hrep.sampleNo⟩

/-- The updates of a whole rename. -/
theorem renameSamples {dev : BioDev} {uid idx : ℤ} (newName : String)
    {todo : List FeatureSample} (st : Store × ℤ × ℤ)
    (h : ∀ s ∈ todo, ∀ r ∈ st.1.db.rows, r.id = s.dbid → r.Repeats dev uid idx s.no) :
    Shrinks st.1.db (todo.foldl (BiometricAuth.renameSample dev uid idx newName) st).1.db := by
  induction todo generalizing st with
  | nil => exact refl _
  | cons s todo ih =>
    obtain ⟨c, n, m⟩ := st
    have hs := renameSample (c := c) newName n m (h s (by simp))
    exact hs.trans (ih _ fun s' hs' => hs.repeats (h s' (by simp [hs'])))

end Shrinks

/-- The samples a rename lists belong to rows with the key it is about, if the numbers of the
samples are `int`s: an update writes what the reader made of them. -/
theorem renameTargets_repeats {db : EigenInfo} {dev : BioDev} {uid idx : ℤ}
    {rows : List EigenRow} (hrows : ∀ r ∈ rows, r ∈ selectRows db (dev.query uid idx idx))
    (hnos : ∀ r ∈ rows, IsCInt r.sampleNo) :
    ∀ s ∈ renameTargets (featuresOf rows) uid idx, s.dbid ≤ db.seq ∧
      ∀ r ∈ db.rows, r.id = s.dbid → r.Repeats dev uid idx s.no := by
  intro s hs
  obtain ⟨info, hinfo, hs⟩ := List.mem_flatMap.mp hs
  obtain ⟨hinfo, hof⟩ := List.mem_filter.mp hinfo
  -- the sample belongs to a feature of the user with the index
  obtain ⟨huid, hidx⟩ : info.uid = uid ∧ info.index = idx := by simpa using hof
  obtain ⟨g, hg, rfl⟩ := List.mem_map.mp hinfo
  obtain ⟨r, hr, rfl⟩ := List.mem_map.mp hs
  -- the feature is the group of its key, and the sample a row of the group
  rw [((Grouping.mem_groups EigenRow.key).mp hg).2, List.mem_filter] at hr
  obtain ⟨hr, hkey⟩ := hr
  have hkey : r.key = g.1 := by simpa using hkey
  have hno := hnos r hr
  -- the row is one that was selected
  obtain ⟨hrow, hsel⟩ := mem_selectRows.mp (hrows r hr)
  obtain ⟨-, -, hbt, hdr, -⟩ := FeatureQuery.selects_iff.mp hsel
  refine ⟨db.ids_le_seq r hrow, fun r' hr' hid => ?_⟩
  -- and the one with the id that the update names
  obtain rfl := EigenInfo.eq_of_id_eq hr' hrow hid
  have hbiotype : dev.biotype.code ≠ -1 := by
    have := dev.biotype.code_nonneg
    omega
  exact {
    uid := by rw [← huid, ← EigenRow.key_uid, hkey]; rfl
    bioType := hbt.resolve_left hbiotype
    driver := hdr _ rfl
    eigenIndex := by rw [← hidx, ← EigenRow.key_eigenIndex, hkey]; rfl
    sampleNo := (columnInt_of_isCInt hno).symm }

/-- In a table of `int`s in which the UUID goes by the user, a rename makes the table shrink. -/
theorem Shrinks.rename (uuidOf : ℤ → String) {stored : ℤ → String} {c : Store} (dev : BioDev)
    (uid idx : ℤ) (newName : String) (hints : ∀ r ∈ c.db.rows, r.Ints)
    (hbio : ∀ r ∈ c.db.rows, 0 ≤ r.bioType)
    (huuid : ∀ r ∈ c.db.rows, r.uuid = some (stored r.uid)) :
    ∃ ret c', bioCommFeatureRenameByDb uuidOf c dev uid idx newName = some (ret, c') ∧
      Shrinks c.db c'.db := by
  obtain ⟨cur, hread⟩ := bioStoGetFeatureInfo_of_uuid uuidOf c.db (dev.query uid idx idx)
    (fun r hr => (hints r hr).columns) hbio huuid
  simp only [bioCommFeatureRenameByDb, hread, Option.bind_eq_bind, Option.bind_some,
    renameInfos_eq]
  refine ⟨_, _, rfl, ?_⟩
  exact Shrinks.renameSamples newName (c, 0, 0) fun s hs =>
    (renameTargets_repeats (fun r hr => (List.mem_filter.mp hr).1)
      (fun r hr => (hints r (mem_selectRows.mp (List.mem_filter.mp hr).1).1).sampleNo) s hs).2

end BiometricAuth
