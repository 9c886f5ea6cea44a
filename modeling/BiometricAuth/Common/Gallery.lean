import BiometricAuth.Common.IndexRuns
import BiometricAuth.Common.RenameFrame
import BiometricAuth.Lib.KeyedList
import BiometricAuth.Lib.Simulation

/-!
# The gallery

What the daemon is for, with rows, IDs and SQL left out, is to keep a `Gallery`: for a user, a UUID,
a device and an index it has at most one feature, with a name and what was enrolled. The `Service`
serves the calls of the devices on it. It takes an enroll to reserve the least index that is free
and later to store the feature, and a rename to choose a feature and later to name it; every change
of the gallery is one step.

`FleetState` refines it: `KeepsGallery` relates the two, and each of its steps is matched by at most
two of the service (`keepsGallery_simulates`). So whatever way the jobs of the devices interleave,
and whichever SQL calls fail, a run is one of the service with the same calls.

Main result: `fleet_refines_service`.
-/

namespace BiometricAuth

/-! ### The abstract service -/

/-- What is stored of a feature. -/
structure Enrolled where
  name : String
  sampleNo : ℤ
  eigenData : Bytes
deriving DecidableEq, Repr

/-- The stored features. -/
abbrev Gallery := FeatureKey → Option Enrolled

/-- The features that a clean is about; an empty driver name stands for every driver. -/
def FeatureQuery.cleaned (q : FeatureQuery) : Set FeatureKey :=
  {k | q.indexStart ≤ k.eigenIndex ∧ (q.uid = -1 ∨ k.uid = q.uid) ∧
    (q.biotype = -1 ∨ k.bioType = q.biotype) ∧
    (∀ d, q.driver = some d → d ≠ "" → k.driver = d) ∧
    (q.indexEnd = -1 ∨ k.eigenIndex ≤ q.indexEnd)}

open Classical in
/-- The gallery without the features of a set. -/
noncomputable def Gallery.erase (g : Gallery) (keys : Set FeatureKey) : Gallery :=
  fun k => if k ∈ keys then none else g k

/-- The gallery with another name for a feature, if it has the feature. -/
def Gallery.rename (g : Gallery) (k : FeatureKey) (newName : String) : Gallery :=
  Function.update g k ((g k).map fun e => { e with name := newName })

/-- A call on a device. -/
inductive ServiceCall
  | enroll (uid : ℤ) (idxName : String)
  | clean (uid idxStart idxEnd : ℤ)
  | rename (uid idx : ℤ) (newName : String)
deriving DecidableEq, Repr

/-- How far a device has got with a call. -/
inductive ServiceTask
  | called (call : ServiceCall)
  /-- An enroll has its index. -/
  | reserved (k : FeatureKey) (idxName : String)
  /-- A rename has its feature. -/
  | chosen (k : FeatureKey) (newName : String)
  /-- The call has taken effect, or has failed. -/
  | over

/-- The state of the service. -/
structure Service (ι : Type*) where
  gallery : Gallery
  uuidOf : ℤ → String
  tasks : ι → Option ServiceTask

/-- What can be seen of a step: the calls, their ends, and what is not about a device. -/
inductive Happening (ι : Type*)
  | call (d : ι) (call : ServiceCall)
  | release (d : ι)
  | systemClean (uid idxStart idxEnd : ℤ)
  | setUuid (uid : ℤ) (uuid : String)

/-- A step of the service. -/
inductive ServiceAction (ι : Type*)
  /-- Something that can be seen. -/
  | seen (h : Happening ι)
  /-- The call on `d` goes on. -/
  | proceed (d : ι)

section Service

variable {ι : Type*} [DecidableEq ι] (fl : Fleet ι)

/-- `d` goes on with `task`. -/
def Service.setTask (a : Service ι) (d : ι) (task : Option ServiceTask) : Service ι :=
  { a with tasks := Function.update a.tasks d task }

/-- A change of the gallery that ends the call on `d`. -/
def Service.finish (a : Service ι) (d : ι) (g : Gallery) : Service ι :=
  { a.setTask d (some .over) with gallery := g }

/-- The steps of the service. -/
inductive Service.Next : Service ι → ServiceAction ι → Service ι → Prop
  | call {a : Service ι} {d : ι} (call : ServiceCall) : a.tasks d = none →
    Next a (.seen (.call d call)) (a.setTask d (some (.called call)))
  /-- An enroll is given the least index under which its user has no feature on the device. -/
  | reserve {a : Service ι} {d : ι} {uid idx : ℤ} {idxName : String} :
    a.tasks d = some (.called (.enroll uid idxName)) →
    IsLeast {i | 0 ≤ i ∧ a.gallery (featureKey a.uuidOf (fl.dev d) uid i) = none} idx →
    Next a (.proceed d)
      (a.setTask d (some (.reserved (featureKey a.uuidOf (fl.dev d) uid idx) idxName)))
  /-- The feature is stored, and no other one is lost by it. -/
  | store {a : Service ι} {d : ι} {k : FeatureKey} {idxName : String} (n : ℤ) (data : Bytes) :
    a.tasks d = some (.reserved k idxName) → a.gallery k = none →
    Next a (.proceed d) (a.finish d (Function.update a.gallery k (some ⟨idxName, n, data⟩)))
  | clean {a : Service ι} {d : ι} {uid idxStart idxEnd : ℤ} :
    a.tasks d = some (.called (.clean uid idxStart idxEnd)) →
    Next a (.proceed d)
      (a.finish d (a.gallery.erase ((fl.dev d).query uid idxStart idxEnd).cleaned))
  | choose {a : Service ι} {d : ι} {uid idx : ℤ} {newName : String} :
    a.tasks d = some (.called (.rename uid idx newName)) →
    Next a (.proceed d)
      (a.setTask d (some (.chosen (featureKey a.uuidOf (fl.dev d) uid idx) newName)))
  | rename {a : Service ι} {d : ι} {k : FeatureKey} {newName : String} :
    a.tasks d = some (.chosen k newName) →
    Next a (.proceed d) (a.finish d (a.gallery.rename k newName))
  /-- A call fails, and the gallery stays as it is. -/
  | fail {a : Service ι} {d : ι} {task : ServiceTask} : a.tasks d = some task →
    Next a (.proceed d) (a.setTask d (some .over))
  | release {a : Service ι} (d : ι) : Next a (.seen (.release d)) (a.setTask d none)
  | systemClean {a : Service ι} (uid idxStart idxEnd : ℤ) :
    Next a (.seen (.systemClean uid idxStart idxEnd))
      { a with gallery := a.gallery.erase (FeatureQuery.cleaned ⟨uid, -1, none, idxStart, idxEnd⟩) }
  | systemCleanFails {a : Service ι} (uid idxStart idxEnd : ℤ) :
    Next a (.seen (.systemClean uid idxStart idxEnd)) a
  | setUuid {a : Service ι} (uid : ℤ) (uuid : String) :
    Next a (.seen (.setUuid uid uuid)) { a with uuidOf := Function.update a.uuidOf uid uuid }

/-- The service with an empty gallery. -/
def Service.init (uuidOf : ℤ → String) : Service ι where
  gallery := fun _ => none
  uuidOf := uuidOf
  tasks := fun _ => none

end Service

/-! ### The gallery of a table -/

/-- What a row says of its feature. -/
def EigenRow.enrolled (r : EigenRow) : Enrolled := ⟨r.eigenIndexName, r.sampleNo, r.eigenData⟩

/-- The features of a table. -/
def EigenInfo.gallery (db : EigenInfo) : Gallery :=
  fun k => (KeyedList.lookup EigenRow.key db.rows k).map EigenRow.enrolled

section Table

variable {db : EigenInfo} {k : FeatureKey} {e : Enrolled}

theorem gallery_eq_none_iff : db.gallery k = none ↔ ∀ r ∈ db.rows, r.key ≠ k := by
  rw [EigenInfo.gallery, Option.map_eq_none_iff, KeyedList.lookup_eq_none_iff]

theorem gallery_eq_some_iff (hrows : RowsOk db) :
    db.gallery k = some e ↔ ∃ r ∈ db.rows, r.key = k ∧ r.enrolled = e := by
  simp only [EigenInfo.gallery, Option.map_eq_some_iff, KeyedList.lookup_eq_some_iff hrows.keys,
    and_assoc]

theorem gallery_insert {uid bioType idx : ℤ} {uuid driver : String} (name : String) (n : ℤ)
    (data : Bytes) (hfree : ∀ r ∈ db.rows, r.key ≠ ⟨uid, some uuid, bioType, driver, idx⟩) :
    (db.insert uid uuid bioType driver idx name n data).gallery =
      Function.update db.gallery ⟨uid, some uuid, bioType, driver, idx⟩ (some ⟨name, n, data⟩) := by
  set r : EigenRow := ⟨db.seq + 1, uid, some uuid, bioType, driver, idx, name, n, data⟩
  have hlookup : KeyedList.lookup EigenRow.key (db.rows ++ [r]) =
      Function.update (KeyedList.lookup EigenRow.key db.rows) r.key (some r) :=
    KeyedList.lookup_append_singleton hfree
  funext k
  calc (db.insert uid uuid bioType driver idx name n data).gallery k
      = (KeyedList.lookup EigenRow.key (db.rows ++ [r]) k).map EigenRow.enrolled := rfl
    _ = Function.update db.gallery r.key (some r.enrolled) k := by
        rw [hlookup]
        by_cases hk : k = r.key
        · rw [hk, Function.update_self, Function.update_self, Option.map_some]
        · rw [Function.update_of_ne hk, Function.update_of_ne hk]
          rfl

theorem mem_cleaned_iff {q : FeatureQuery} {r : EigenRow} :
    r.key ∈ q.cleaned ↔ q.deletes r = true := by
  rw [FeatureQuery.deletes, FeatureQuery.selects_iff]
  simp only [FeatureQuery.cleaned, Set.mem_ofPred_eq, EigenRow.key_eigenIndex, EigenRow.key_uid,
    EigenRow.key_bioType, EigenRow.key_driver, Option.filter_eq_some_iff, decide_eq_true_eq,
    and_imp, ne_eq]

theorem gallery_delete (q : FeatureQuery) :
    (db.delete q.deletes).gallery = db.gallery.erase q.cleaned := by
  classical
  funext k
  have hlookup : KeyedList.lookup EigenRow.key (db.rows.filter fun r => !q.deletes r) k =
      if k ∉ q.cleaned then KeyedList.lookup EigenRow.key db.rows k else none := by
    refine KeyedList.lookup_filter (q := fun k => k ∉ q.cleaned) fun r => ?_
    rw [mem_cleaned_iff, Bool.not_eq_true', Bool.not_eq_true]
  calc (db.delete q.deletes).gallery k
      = (KeyedList.lookup EigenRow.key (db.rows.filter fun r => !q.deletes r) k).map
          EigenRow.enrolled := rfl
    _ = db.gallery.erase q.cleaned k := by
        rw [hlookup, Gallery.erase]
        by_cases hk : k ∈ q.cleaned
        · rw [if_neg (not_not.mpr hk), if_pos hk, Option.map_none]
        · rw [if_pos hk, if_neg hk]
          rfl

theorem gallery_update {dev : BioDev} {uid idx sampleNo : ℤ} {dbid : ℕ} (newName : String)
    (hrep : ∀ r ∈ db.rows, r.id = dbid → r.Repeats dev uid idx sampleNo)
    (hkey : ∀ r ∈ db.rows, r.id = dbid ↔ r.key = k) :
    (db.update dbid uid dev.biotype.code dev.deviceName idx newName sampleNo).gallery =
      db.gallery.rename k newName := by
  funext k'
  -- an update does not touch the key of a row
  have hkeys : ∀ r : EigenRow,
      (if r.id = dbid then { r with eigenIndexName := newName } else r).key = r.key := by
    intro r
    split <;> rfl
  rw [EigenInfo.gallery, update_renames newName hrep, KeyedList.lookup_map hkeys, Gallery.rename,
    Option.map_map]
  -- the row of the key gets the new name
  by_cases hk : k' = k
  · subst hk
    rw [Function.update_self, EigenInfo.gallery, Option.map_map]
    refine Option.map_congr fun r hr => ?_
    obtain ⟨hr, hrk⟩ := KeyedList.mem_of_lookup hr
    rw [Function.comp_apply, if_pos ((hkey r hr).mpr hrk)]
    rfl
  · -- a row with another key has another id
    rw [Function.update_of_ne hk, EigenInfo.gallery]
    refine Option.map_congr fun r hr => ?_
    obtain ⟨hr, hrk⟩ := KeyedList.mem_of_lookup hr
    rw [Function.comp_apply, if_neg fun hid => hk (hrk.symm.trans ((hkey r hr).mp hid))]

/-- The index an enroll is given is free in the gallery. -/
theorem usedIndex_iff (uuidOf : ℤ → String) (dev : BioDev) (uid i : ℤ) :
    UsedIndex uuidOf db dev uid i ↔ db.gallery (featureKey uuidOf dev uid i) ≠ none := by
  rw [Ne, gallery_eq_none_iff]
  push Not
  refine exists_congr fun r => and_congr_right fun _ => ?_
  simp only [EigenRow.isCurrent, decide_eq_true_eq, featureKey, EigenRow.key, FeatureKey.mk.injEq]
  constructor
  · rintro ⟨huuid, rfl, hbio, hdriver, hidx⟩
    exact ⟨rfl, huuid, hbio, hdriver, hidx⟩
  · rintro ⟨rfl, huuid, hbio, hdriver, hidx⟩
    exact ⟨huuid, rfl, hbio, hdriver, hidx⟩

/-- The feature that is listed has one sample, and is what was enrolled. -/
def FeatureInfo.Shows (info : FeatureInfo) (e : Enrolled) : Prop :=
  info.indexName = e.name ∧
    info.samples.map (fun sample => (sample.no, sample.data)) = [(e.sampleNo, e.eigenData)]

theorem shows_featureOf_iff {r : EigenRow} {e : Enrolled} (hno : IsCInt r.sampleNo) :
    (featureOf (r.key, [r])).Shows e ↔ r.enrolled = e := by
  obtain ⟨name, n, data⟩ := e
  simp [FeatureInfo.Shows, featureOf, EigenRow.toSample, EigenRow.enrolled,
    columnInt_of_isCInt hno]

/-- Where no two rows have the same key, a row is a feature. -/
theorem mem_featuresOf_iff {rows : List EigenRow} (hkeys : (rows.map EigenRow.key).Nodup)
    {info : FeatureInfo} :
    info ∈ featuresOf rows ↔ ∃ r ∈ rows, info = featureOf (r.key, [r]) := by
  rw [featuresOf, List.mem_map]
  constructor
  · rintro ⟨⟨k, rs⟩, hg, rfl⟩
    obtain ⟨hk, hrs⟩ := (Grouping.mem_groups EigenRow.key).mp hg
    obtain ⟨r, hr, rfl⟩ := (Grouping.mem_keys EigenRow.key).mp hk
    obtain rfl := hrs.trans (KeyedList.filter_eq_singleton hkeys hr)
    exact ⟨r, hr, rfl⟩
  · rintro ⟨r, hr, rfl⟩
    refine ⟨(r.key, [r]), (Grouping.mem_groups EigenRow.key).mpr ⟨?_, ?_⟩, rfl⟩
    · exact (Grouping.mem_keys EigenRow.key).mpr ⟨r, hr, rfl⟩
    · exact (KeyedList.filter_eq_singleton hkeys hr).symm

/-- The reader lists, for a user on a device and in the order of the indices, the features of the
wanted range that the gallery has under the current UUID. -/
def Gallery.ListedIn (g : Gallery) (uuidOf : ℤ → String) (db : EigenInfo) (dev : BioDev)
    (uid start endIdx : ℤ) : Prop :=
  ∃ infos, bioStoGetFeatureInfo uuidOf db (dev.query uid start endIdx) = some infos ∧
    (infos.Pairwise fun f g => f.index < g.index) ∧
    ∀ i e, (∃ info ∈ infos, info.index = i ∧ info.Shows e) ↔
      InIndexRange start endIdx i ∧ g (featureKey uuidOf dev uid i) = some e

/-- A list shows the gallery of the table. -/
theorem gallery_listedIn (uuidOf : ℤ → String) (hrows : RowsOk db) (dev : BioDev) {uid : ℤ}
    (huid : uid ≠ -1) (start endIdx : ℤ) : db.gallery.ListedIn uuidOf db dev uid start endIdx := by
  -- the indices in use are those of rows, hence `int`s
  have hints : ∀ i, UsedIndex uuidOf db dev uid i → IsCInt i := by
    rintro i ⟨r, hr, -, -, -, -, rfl⟩
    exact (hrows.ints r hr).eigenIndex
  obtain ⟨infos, hread, hsorted, -⟩ := @exists_list_of_range uuidOf db dev uid start endIdx
    huid hints fun r hr _ => hrows.uuid r hr
  refine ⟨infos, hread, hsorted, fun i e => ?_⟩
  rw [hrows.bioStoGetFeatureInfo_eq huid, Option.some.injEq] at hread
  set rows := currentRows uuidOf db (dev.query uid start endIdx) with hlisted
  -- two listed rows with one key would be one row
  have hkeys : (rows.map EigenRow.key).Nodup := by
    have hselected := ((selectRows_perm db (dev.query uid start endIdx)).map
      EigenRow.key).nodup_iff.mpr (hrows.keys.sublist (List.filter_sublist.map _))
    exact hselected.sublist (List.filter_sublist.map _)
  have hbio : dev.biotype.code ≠ -1 := by
    have := dev.biotype.code_nonneg
    omega
  -- a listed row is a row of the range under the key of its index
  have hmem : ∀ r, r ∈ rows ↔ r ∈ db.rows ∧ InIndexRange start endIdx r.eigenIndex ∧
      r.key = featureKey uuidOf dev uid r.eigenIndex := by
    intro r
    rw [hlisted, mem_currentRows, FeatureQuery.selects_iff]
    simp only [BioDev.query, huid, hbio, false_or, Option.some.injEq, forall_eq', InIndexRange,
      EigenRow.isCurrent, decide_eq_true_eq, featureKey, EigenRow.key, FeatureKey.mk.injEq,
      and_true]
    constructor
    · rintro ⟨hr, ⟨hstart, rfl, hbt, hdriver, hend⟩, huuid⟩
      exact ⟨hr, ⟨hstart, hend⟩, rfl, huuid, hbt, hdriver⟩
    · rintro ⟨hr, ⟨hstart, hend⟩, rfl, huuid, hbt, hdriver⟩
      exact ⟨hr, ⟨hstart, rfl, hbt, hdriver, hend⟩, huuid⟩
  simp only [← hread, mem_featuresOf_iff hkeys, gallery_eq_some_iff hrows]
  constructor
  · -- a listed feature is one of a row of the range, with the print of that row
    rintro ⟨-, ⟨r, hr, rfl⟩, rfl, hshows⟩
    obtain ⟨hr, hrange, hkey⟩ := (hmem r).mp hr
    exact ⟨hrange, r, hr, hkey, (shows_featureOf_iff (hrows.ints r hr).sampleNo).mp hshows⟩
  · -- and the feature of such a row is listed
    rintro ⟨hrange, r, hr, hkey, rfl⟩
    obtain rfl : r.eigenIndex = i := congrArg FeatureKey.eigenIndex hkey
    exact ⟨_, ⟨r, (hmem r).mpr ⟨hr, hrange, hkey⟩, rfl⟩, rfl,
      (shows_featureOf_iff (hrows.ints r hr).sampleNo).mpr rfl⟩

end Table

/-! ### The refinement -/

/-- The call a request is. -/
def Job.call : Job → Option ServiceCall
  | .enroll uid idxName => some (.enroll uid idxName)
  | .clean uid idxStart idxEnd => some (.clean uid idxStart idxEnd)
  | .rename uid idx newName => some (.rename uid idx newName)
  | .enrolling .. | .updating .. | .done => none

/-- What can be seen of a step of the daemon. -/
def FleetAction.happening {ι : Type*} : FleetAction ι → Option (Happening ι)
  | .request d job => job.call.map (.call d)
  | .proceed .. => none
  | .release d => some (.release d)
  | .systemClean uid idxStart idxEnd _ => some (.systemClean uid idxStart idxEnd)
  | .setUuid uid uuid => some (.setUuid uid uuid)

/-- What can be seen of a step of the service. -/
def ServiceAction.happening {ι : Type*} : ServiceAction ι → Option (Happening ι)
  | .seen h => some h
  | .proceed _ => none

/-- A job of the device `dev`, and how far the service has got with it. -/
inductive Matches (dev : BioDev) (uuidOf : ℤ → String) (db : EigenInfo) :
    Job → ServiceTask → Prop
  | called {job : Job} {call : ServiceCall} (h : job.call = some call) :
    Matches dev uuidOf db job (.called call)
  | enrolling (uid idx : ℤ) (idxName : String) : Matches dev uuidOf db (.enrolling uid idx idxName)
    (.reserved (featureKey uuidOf dev uid idx) idxName)
  /-- The row to be updated is that of the feature, and stays the only one. -/
  | updating (uid idx : ℤ) (newName : String) {todo : FeatureSample} {k : FeatureKey}
    (hdriver : k.driver = dev.deviceName) (hrow : ∀ r ∈ db.rows, r.id = todo.dbid ↔ r.key = k) :
    Matches dev uuidOf db (.updating uid idx newName [todo]) (.chosen k newName)
  | updated (uid idx : ℤ) (newName : String) :
    Matches dev uuidOf db (.updating uid idx newName []) .over
  | done : Matches dev uuidOf db .done .over

/-- The daemon keeps the gallery of the service. -/
structure KeepsGallery {ι : Type*} (fl : Fleet ι) (s : FleetState ι) (a : Service ι) : Prop where
  inv : FleetInv fl s
  gallery : a.gallery = s.db.gallery
  uuidOf : a.uuidOf = s.uuidOf
  tasks : ∀ d, Option.Rel (Matches (fl.dev d) s.uuidOf s.db) (s.jobs d) (a.tasks d)

section Matches

variable {dev : BioDev} {uuidOf : ℤ → String} {db db' : EigenInfo} {job : Job} {task : ServiceTask}

theorem Matches.shrinks (h : Matches dev uuidOf db job task) (hs : Shrinks db db') :
    Matches dev uuidOf db' job task := by
  cases h with
  | called hcall => exact .called hcall
  | enrolling uid idx idxName => exact .enrolling uid idx idxName
  | updating uid idx newName hdriver hrow =>
    refine .updating uid idx newName hdriver fun r' hr' => ?_
    obtain ⟨r, hr, hid, hkey, -⟩ := hs.exists_row hr'
    rw [← hid, ← hkey]
    exact hrow r hr
  | updated uid idx newName => exact .updated uid idx newName
  | done => exact .done

theorem Matches.insert (h : Matches dev uuidOf db job task) (hjob : JobOk dev uuidOf db job)
    {uid bioType idx : ℤ} {uuid driver : String} (name : String) (n : ℤ) (data : Bytes)
    (hne : dev.deviceName ≠ driver) :
    Matches dev uuidOf (db.insert uid uuid bioType driver idx name n data) job task := by
  cases h with
  | called hcall => exact .called hcall
  | enrolling uid idx idxName => exact .enrolling uid idx idxName
  | updating uid' idx' newName hdriver hrow =>
    obtain ⟨hle, -⟩ := hjob _ List.mem_cons_self
    refine .updating uid' idx' newName hdriver fun r hr => ?_
    rcases List.mem_append.mp hr with hr | hr
    · exact hrow r hr
    · -- the new row is of another device, and has an `ID` that was never listed
      obtain rfl := List.mem_singleton.mp hr
      refine iff_of_false (fun hid => ?_) fun hkey => hne ?_
      · have : db.seq + 1 = _ := hid
        omega
      · rw [← hdriver, ← hkey]
        rfl
  | updated uid idx newName => exact .updated uid idx newName
  | done => exact .done

theorem Matches.setUuid (h : Matches dev uuidOf db job task) {uid : ℤ} (uuid : String)
    (hne : job.enrollUid ≠ some uid) :
    Matches dev (Function.update uuidOf uid uuid) db job task := by
  cases h with
  | called hcall => exact .called hcall
  | enrolling uid' idx idxName =>
    have huid : uid' ≠ uid := fun heq => hne (by rw [heq]; rfl)
    have hkey : featureKey uuidOf dev uid' idx =
        featureKey (Function.update uuidOf uid uuid) dev uid' idx := by
      rw [featureKey, featureKey, Function.update_of_ne huid]
    rw [hkey]
    exact .enrolling uid' idx idxName
  | updating uid idx newName hdriver hrow => exact .updating uid idx newName hdriver hrow
  | updated uid idx newName => exact .updated uid idx newName
  | done => exact .done

/-- A rename has at most one row to update, and it is that of the feature. -/
theorem renameTargets_cases {uid idx : ℤ} {infos : List FeatureInfo} (hrows : RowsOk db)
    (hread : bioStoGetFeatureInfo uuidOf db (dev.query uid idx idx) = some infos) :
    renameTargets infos uid idx = [] ∨
      ∃ todo, renameTargets infos uid idx = [todo] ∧
        ∀ r ∈ db.rows, r.id = todo.dbid ↔ r.key = featureKey uuidOf dev uid idx := by
  by_cases huid : uid = -1
  · -- no row, hence no listed feature, has uid `-1`
    left
    refine List.eq_nil_iff_forall_not_mem.mpr fun todo htodo => ?_
    obtain ⟨info, hinfo, -⟩ := List.mem_flatMap.mp htodo
    obtain ⟨hinfo, hof⟩ := List.mem_filter.mp hinfo
    obtain ⟨hiuid, -⟩ : info.uid = uid ∧ info.index = idx := by simpa using hof
    have := hrows.uid_of_mem_features hread hinfo
    omega
  · rw [hrows.bioStoGetFeatureInfo_eq huid, Option.some.injEq] at hread
    rw [← hread, renameTargets_featuresOf (currentRows_sorted uuidOf db _), ← renamedRows]
    have hmem : ∀ r, r ∈ renamedRows uuidOf db dev uid idx ↔
        r ∈ db.rows ∧ r.key = featureKey uuidOf dev uid idx := fun r => mem_renamedRows huid
    have hnodup := renamedRows_nodup uuidOf db dev uid idx
    cases hrenamed : renamedRows uuidOf db dev uid idx with
    | nil => exact .inl rfl
    | cons r rs =>
      rw [hrenamed] at hmem hnodup
      obtain ⟨hr, hkey⟩ := (hmem r).mp List.mem_cons_self
      -- a second row would have the key of the first
      obtain rfl : rs = [] := by
        refine List.eq_nil_iff_forall_not_mem.mpr fun r' hr' => ?_
        obtain ⟨hmem', hkey'⟩ := (hmem r').mp (List.mem_cons_of_mem r hr')
        rw [List.inj_on_of_nodup_map hrows.keys hmem' hr (hkey'.trans hkey.symm)] at hr'
        exact (List.nodup_cons.mp hnodup).1 hr'
      refine .inr ⟨r.toSample, rfl, fun r' hr' => ⟨fun hid => ?_, fun hkey' => ?_⟩⟩
      · rw [EigenInfo.eq_of_id_eq hr' hr hid, hkey]
      · rw [List.inj_on_of_nodup_map hrows.keys hr' hr (hkey'.trans hkey.symm)]
        rfl

end Matches

section Simulation

variable {ι : Type*} [DecidableEq ι] {fl : Fleet ι} {s : FleetState ι} {a : Service ι}

omit [DecidableEq ι] in
/-- A job and its task that still match. -/
theorem KeepsGallery.rel (h : KeepsGallery fl s a) {d : ι} {uuidOf' : ℤ → String}
    {db' : EigenInfo}
    (hmatches : ∀ job task, s.jobs d = some job → Matches (fl.dev d) s.uuidOf s.db job task →
      Matches (fl.dev d) uuidOf' db' job task) :
    Option.Rel (Matches (fl.dev d) uuidOf' db') (s.jobs d) (a.tasks d) := by
  have htasks := h.tasks d
  generalize hjob : s.jobs d = job, a.tasks d = task at htasks ⊢
  cases htasks with
  | none => exact .none
  | some hmatch => exact .some (hmatches _ _ hjob hmatch)

/-- A step of `d` after which the other jobs and their tasks match as before. -/
theorem KeepsGallery.setJob (h : KeepsGallery fl s a) {db' : EigenInfo} {g : Gallery} {d : ι}
    {job' : Option Job} {task' : Option ServiceTask}
    (hinv : FleetInv fl { s.setJob d job' with db := db' }) (hg : g = db'.gallery)
    (hmatch : Option.Rel (Matches (fl.dev d) s.uuidOf db') job' task')
    (hothers : ∀ d' job task, d' ≠ d → s.jobs d' = some job →
      Matches (fl.dev d') s.uuidOf s.db job task → Matches (fl.dev d') s.uuidOf db' job task) :
    KeepsGallery fl { s.setJob d job' with db := db' }
      { a.setTask d task' with gallery := g } where
  inv := hinv
  gallery := hg
  uuidOf := h.uuidOf
  tasks d' := by
    by_cases heq : d' = d
    · subst heq
      simpa [FleetState.setJob, Service.setTask] using hmatch
    · simp only [FleetState.setJob, Service.setTask, Function.update_of_ne heq]
      exact h.rel fun job task => hothers d' job task heq

/-- A step of `d` that takes nothing but rows and names away. -/
theorem KeepsGallery.shrinks (h : KeepsGallery fl s a) {db' : EigenInfo} {g : Gallery}
    (hs : Shrinks s.db db') (hg : g = db'.gallery) {d : ι} {job : Job} {task : ServiceTask}
    (hjob : JobOk (fl.dev d) s.uuidOf db' job)
    (hmatch : Matches (fl.dev d) s.uuidOf db' job task) :
    KeepsGallery fl { s.setJob d (some job) with db := db' }
      { a.setTask d (some task) with gallery := g } :=
  h.setJob (h.inv.shrinks hs fun _ hj => Option.some.inj hj ▸ hjob) hg (.some hmatch)
    fun _ _ _ _ _ hmatch' => hmatch'.shrinks hs

/-- What the last step of an enroll does: nothing, or it inserts the row. -/
theorem proceedJob_enrolling {dev : BioDev} {db db' : EigenInfo} {uuidOf : ℤ → String}
    {outcomes : List Bool} {uid idx n : ℤ} {idxName : String} {data : Bytes} {job' : Job}
    (huid : 0 ≤ uid)
    (hproc : proceedJob dev db uuidOf outcomes n data (.enrolling uid idx idxName) =
      some (db', job')) :
    job' = .done ∧ (db' = db ∨
      db' = db.insert uid (uuidOf uid) dev.biotype.code dev.deviceName idx idxName n data) := by
  obtain ⟨ret, c, hset, hc⟩ := bioStoSetFeatureInfo_single uuidOf ⟨db, outcomes⟩
    { uid := uid, biotype := dev.biotype.code, driver := dev.deviceName, index := idx,
      indexName := idxName, samples := [] } ⟨0, n, data⟩
  have hne : uid ≠ -1 := by omega
  simp only [proceedJob, hset, Option.bind_eq_bind, Option.bind_some, Option.some.injEq,
    Prod.mk.injEq, if_neg hne] at hproc hc
  obtain ⟨rfl, rfl⟩ := hproc
  exact ⟨rfl, hc.imp And.right And.right⟩

/-- The step in which an enroll of `d` inserts its row. -/
theorem KeepsGallery.insert (h : KeepsGallery fl s a) {d : ι} {uid idx : ℤ} {idxName : String}
    {n : ℤ} (hn : IsCInt n) (data : Bytes) (hd : s.jobs d = some (.enrolling uid idx idxName)) :
    KeepsGallery fl
      { s.setJob d (some .done) with
        db := s.db.insert uid (s.uuidOf uid) (fl.dev d).biotype.code (fl.dev d).deviceName idx
          idxName n data }
      (a.finish d (Function.update a.gallery (featureKey s.uuidOf (fl.dev d) uid idx)
        (some ⟨idxName, n, data⟩))) := by
  refine h.setJob (h.inv.insert hn data hd) ?_ (.some .done) fun d' job task hne hd' hmatch => ?_
  · have hfree := (h.inv.jobs d _ hd).2.2
    rw [gallery_insert idxName n data hfree, h.gallery]
    rfl
  · exact hmatch.insert (h.inv.jobs d' job hd') idxName n data
      fun hname => hne (fl.deviceName_injective hname)

/-- **Step lemma, for a job that goes on.** -/
theorem KeepsGallery.proceed (h : KeepsGallery fl s a) {d : ι} {outcomes : List Bool} {n : ℤ}
    {data : Bytes} {job job' : Job} {db' : EigenInfo} (hn : IsCInt n) (hd : s.jobs d = some job)
    (hproc : proceedJob (fl.dev d) s.db s.uuidOf outcomes n data job = some (db', job')) :
    ∃ bs a', Machine.Steps (Service.Next fl) a bs a' ∧
      KeepsGallery fl { s.setJob d (some job') with db := db' } a' ∧
        bs.filterMap ServiceAction.happening = [] := by
  -- the job that goes on is well formed, as is every job of a reachable state
  have hrows := h.inv.rows
  have hjob := h.inv.jobs d job hd
  have hjob' := (proceedJob_cases hrows hjob hproc).1
  have htask := h.tasks d
  rw [hd] at htask
  -- the task of the service that the job stands for
  generalize ha : a.tasks d = task at htask
  cases htask with
  | some hmatch =>
  cases job with
  | done => cases hproc
  | enroll uid idxName =>
    -- the least free index is chosen, and the service reserves the same
    cases hmatch with
    | called hcall =>
      obtain rfl := Option.some.inj hcall
      obtain ⟨idx, hidx, hproc⟩ := Option.bind_eq_some_iff.mp hproc
      cases hproc
      have hne : uid ≠ -1 := by
        have : 0 ≤ uid := hjob.1
        omega
      have hleast := (isLeast_of_bioCommonGetEmptyIndexInt
        (fun r hr => (hrows.ints r hr).eigenIndex) hne hidx).2
      simp only [usedIndex_iff, not_not, ← h.gallery, ← h.uuidOf] at hleast
      refine ⟨_, _, .single (.reserve ha hleast), h.shrinks (.refl _) h.gallery hjob' ?_, rfl⟩
      rw [h.uuidOf]
      exact .enrolling uid idx idxName
  | clean uid idxStart idxEnd =>
    cases hmatch with
    | called hcall =>
      obtain rfl := Option.some.inj hcall
      cases hproc
      -- the `DELETE` fails as a whole, or it is executed as a whole
      rcases bioStoCleanFeatureInfo_cases ⟨s.db, outcomes⟩ ((fl.dev d).query uid idxStart idxEnd)
        with ⟨-, hdb⟩ | ⟨-, hdb⟩ <;> rw [hdb]
      · exact ⟨_, _, .single (.fail ha), h.shrinks (.refl _) h.gallery hjob' .done, rfl⟩
      · refine ⟨_, _, .single (.clean ha), h.shrinks (.delete _ _) ?_ trivial .done, rfl⟩
        rw [gallery_delete, h.gallery]
  | rename uid idx newName =>
    -- the rows to be updated are read, and the service chooses the feature they belong to
    cases hmatch with
    | called hcall =>
      obtain rfl := Option.some.inj hcall
      obtain ⟨infos, hread, hproc⟩ := Option.bind_eq_some_iff.mp hproc
      cases hproc
      have hchoose : Service.Next fl a (.proceed d) _ := .choose ha
      rcases renameTargets_cases hrows hread with htargets | ⟨todo, htargets, hrow⟩
      · -- nothing to be renamed
        rw [htargets] at hjob' ⊢
        refine ⟨_, _, .cons hchoose (.single (.fail (Function.update_self ..))), ?_, rfl⟩
        have hkeeps := h.shrinks (.refl _) h.gallery hjob' (.updated uid idx newName)
        simpa [Service.setTask] using hkeeps
      · -- the only row is that of the feature
        rw [htargets] at hjob' ⊢
        refine ⟨_, _, .single hchoose, h.shrinks (.refl _) h.gallery hjob' ?_, rfl⟩
        rw [h.uuidOf]
        exact .updating uid idx newName rfl hrow
  | enrolling uid idx idxName =>
    -- the print is stored at the index that was reserved, unless the `INSERT` fails
    cases hmatch with
    | called hcall => cases hcall
    | enrolling =>
      -- no row has the key of the reserved index: the service finds the place empty
      obtain ⟨rfl, rfl | rfl⟩ := proceedJob_enrolling hjob.1 hproc
      · exact ⟨_, _, .single (.fail ha), h.shrinks (.refl _) h.gallery trivial .done, rfl⟩
      · exact ⟨_, _, .single (.store n data ha (h.gallery ▸ gallery_eq_none_iff.mpr hjob.2.2)),
          h.insert hn data hd, rfl⟩
  | updating uid idx newName todo =>
    -- the row that was chosen is updated, unless the `UPDATE` fails
    cases hmatch with
    | called hcall => cases hcall
    | updating uid idx newName hdriver hrow =>
      cases hproc
      have hrep := (hjob _ List.mem_cons_self).2
      have hs := Shrinks.renameSample (c := ⟨s.db, outcomes⟩) newName 0 0 hrep
      refine ⟨_, _, .single (?_ : Service.Next fl a (.proceed d) (a.finish d _)),
        h.shrinks hs rfl hjob' (.updated uid idx newName), rfl⟩
      -- with an `UPDATE` that fails the table is as it was
      rcases bioStoUpdateFeatureInfoByDbid_cases ⟨s.db, outcomes⟩ _ uid (fl.dev d).biotype.code
        (fl.dev d).deviceName idx newName _ with hdb | ⟨-, hdb⟩ <;> rw [renameSample, hdb]
      · rw [← h.gallery]
        exact .fail ha
      · rw [gallery_update newName hrep hrow, ← h.gallery]
        exact .rename ha
    | updated =>
      -- no row is left: the service has done its step already
      cases hproc
      have hself : a.setTask d (some .over) = a := by
        rw [Service.setTask, ← ha, Function.update_eq_self]
      refine ⟨[], a, .nil a, ?_, rfl⟩
      have hkeeps := h.shrinks (.refl _) h.gallery hjob' .done
      rwa [hself] at hkeeps

/-- Every request is a call. -/
theorem Job.exists_call {job : Job} (h : job.isRequest = true) : ∃ call, job.call = some call := by
  cases job with
  | enroll uid idxName => exact ⟨_, rfl⟩
  | clean uid idxStart idxEnd => exact ⟨_, rfl⟩
  | rename uid idx newName => exact ⟨_, rfl⟩
  | enrolling | updating | done => cases h

/-- **The daemon refines the service.** -/
theorem keepsGallery_simulates [Fintype ι] (fl : Fleet ι) :
    Machine.Simulates (FleetState.step fl) (Service.Next fl) FleetAction.happening
      ServiceAction.happening (KeepsGallery fl) := by
  intro s a action s' h hstep
  have hinv := h.inv.step hstep
  cases action with
  | request d job =>
    obtain ⟨⟨hidle, hrequest⟩, hs'⟩ := Option.ite_none_right_eq_some.mp hstep
    obtain rfl := Option.some.inj hs'
    -- every request of the daemon is a call of the service
    obtain ⟨call, hcall⟩ := job.exists_call hrequest
    have htask := h.tasks d
    rw [hidle] at htask
    generalize ha : a.tasks d = task at htask
    cases htask with
    | none =>
    refine ⟨_, _, .single (.call call ha), ?_, ?_⟩
    · exact h.setJob hinv h.gallery (.some (.called hcall)) fun _ _ _ _ _ hmatch => hmatch
    · rw [FleetAction.happening, hcall]
      rfl
  | proceed d outcomes n data =>
    simp only [FleetState.step, Option.ite_none_right_eq_some, Option.map_eq_some_iff,
      Option.bind_eq_some_iff] at hstep
    obtain ⟨hn, ⟨db', job'⟩, ⟨job, hd, hproc⟩, rfl⟩ := hstep
    exact h.proceed hn hd hproc
  | release d =>
    obtain rfl := Option.some.inj hstep
    exact ⟨_, _, .single (.release d),
      h.setJob hinv h.gallery .none fun _ _ _ _ _ hmatch => hmatch, rfl⟩
  | systemClean uid idxStart idxEnd outcomes =>
    -- the system clean is no job, so that every task stays as it is
    obtain rfl := Option.some.inj hstep
    have hs := Shrinks.clean ⟨s.db, outcomes⟩ ⟨uid, -1, none, idxStart, idxEnd⟩
    have htasks := fun d => h.rel (d := d) fun job task _ hmatch => hmatch.shrinks hs
    -- its `DELETE` fails as a whole, or it is executed as a whole
    rcases bioStoCleanFeatureInfo_cases ⟨s.db, outcomes⟩ ⟨uid, -1, none, idxStart, idxEnd⟩
      with ⟨-, hdb⟩ | ⟨-, hdb⟩
    · exact ⟨_, _, .single (.systemCleanFails uid idxStart idxEnd),
        ⟨hinv, by rw [hdb, h.gallery], h.uuidOf, htasks⟩, rfl⟩
    · exact ⟨_, _, .single (.systemClean uid idxStart idxEnd),
        ⟨hinv, by rw [hdb, gallery_delete, h.gallery], h.uuidOf, htasks⟩, rfl⟩
  | setUuid uid uuid =>
    -- no enroll of the user is under way, so no reserved index changes its key
    obtain ⟨hidle, hs'⟩ := Option.ite_none_right_eq_some.mp hstep
    obtain rfl := Option.some.inj hs'
    refine ⟨_, _, .single (.setUuid uid uuid), ⟨hinv, h.gallery, ?_, fun d => ?_⟩, rfl⟩
    · rw [h.uuidOf]
    · exact h.rel fun job task hd hmatch => hmatch.setUuid uuid fun heq =>
        hidle d (by rw [hd, Option.bind_some, heq])

omit [DecidableEq ι] in
theorem keepsGallery_init (fl : Fleet ι) (uuidOf : ℤ → String) :
    KeepsGallery fl (FleetState.init uuidOf) (Service.init uuidOf) :=
  ⟨fleetInv_init fl uuidOf, rfl, rfl, fun _ => .none⟩

/-- **The daemon is the service.** However the jobs of its devices interleave, and whichever SQL
calls fail, a run of the daemon is one of the service with the same calls: every enroll, clean and
rename takes effect in one step or fails, no enroll replaces a feature, and what is listed at the
end is what the gallery has. -/
theorem fleet_refines_service [Fintype ι] (fl : Fleet ι) (uuidOf : ℤ → String)
    (as : List (FleetAction ι)) (s : FleetState ι)
    (hrun : Machine.run (FleetState.step fl) (FleetState.init uuidOf) as = some s) :
    ∃ bs a, Machine.Steps (Service.Next fl) (Service.init uuidOf) bs a ∧
      bs.filterMap ServiceAction.happening = as.filterMap FleetAction.happening ∧
      a.uuidOf = s.uuidOf ∧ (∀ d, a.tasks d = none ↔ s.jobs d = none) ∧
      ∀ d uid start endIdx, uid ≠ -1 →
        a.gallery.ListedIn s.uuidOf s.db (fl.dev d) uid start endIdx := by
  obtain ⟨bs, a, hsteps, hkeeps, hseen⟩ :=
    (keepsGallery_simulates fl).run (keepsGallery_init fl uuidOf) hrun
  refine ⟨bs, a, hsteps, hseen, hkeeps.uuidOf, fun d => ?_, fun d uid start endIdx huid => ?_⟩
  · have htasks := hkeeps.tasks d
    generalize s.jobs d = job, a.tasks d = task at htasks ⊢
    cases htasks <;> simp
  · rw [hkeeps.gallery]
    exact gallery_listedIn s.uuidOf hkeeps.inv.rows (fl.dev d) huid start endIdx

end Simulation

/-- Two enrolls of one user, a rename and a system-level clean that interleave. -/
theorem fleet_refines_service_interleaved :
    ∃ s bs a, Machine.run (FleetState.step twoReaders) (FleetState.init fun _ => "u")
        interleavedRun = some s ∧
      Machine.Steps (Service.Next twoReaders) (Service.init fun _ => "u") bs a ∧
      bs.filterMap ServiceAction.happening = interleavedRun.filterMap FleetAction.happening ∧
      a.gallery.ListedIn s.uuidOf s.db (twoReaders.dev true) 7 0 (-1) := by
  obtain ⟨s, hs⟩ : ∃ s, Machine.run (FleetState.step twoReaders)
      (FleetState.init fun _ => "u") interleavedRun = some s := ⟨_, rfl⟩
  obtain ⟨bs, a, hsteps, hseen, -, -, hlisted⟩ :=
    fleet_refines_service twoReaders (fun _ => "u") interleavedRun s hs
  exact ⟨s, bs, a, hs, hsteps, hseen, hlisted true 7 0 (-1) (by decide)⟩

end BiometricAuth
