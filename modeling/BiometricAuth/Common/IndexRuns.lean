import BiometricAuth.Common.FreeIndex
import BiometricAuth.Common.Rename
import BiometricAuth.Lib.Machine

/-!
# Runs of enrolls, cleans and renames on several devices

A daemon with any number of devices of distinct names serves Enroll, Clean and
Rename requests. Each request holds the mutex of its device while it works, so
a device has at most one `Job`; the steps of jobs on different devices
interleave. What a job does to the database is cut at the points where another
device can get in between: an enroll reads the index, and later inserts the row;
a rename reads the list, and then updates the rows one by one. The system-level
clean takes no mutex, and a user's UUID may change whenever no enroll of that
user is under way.

A job may be given up at any point (the device fails to open, the operation
times out or is stopped), and any SQL call may fail.

`Inv` is the invariant of these runs. It rests on two facts about the table that
every step of another device respects (`Shrinks`, `Inv.insert`): the index an
enroll holds stays free, and the rows a rename is about keep their key.

Main result: `index_runs` — no two rows ever have the same key, and every enroll
is given the least free index while there is one of type `int`.
-/

namespace BiometricAuth

/-- The devices of a daemon. -/
structure Fleet (ι : Type*) where
  dev : ι → BioDev
  /-- Device names are distinct. -/
  deviceName_injective : Function.Injective fun d => (dev d).deviceName

/-- What a device is doing while its mutex is held. -/
inductive Job
  /-- Enroll with index `-1`, before the index is read. -/
  | enroll (uid : ℤ) (idxName : String)
  /-- Enroll with the index `idx` it was given, before the row is inserted. -/
  | enrolling (uid idx : ℤ) (idxName : String)
  /-- Clean, before the rows are deleted. -/
  | clean (uid idxStart idxEnd : ℤ)
  /-- Rename, before the list is read. -/
  | rename (uid idx : ℤ) (newName : String)
  /-- Rename, with the samples still to be updated. -/
  | updating (uid idx : ℤ) (newName : String) (todo : List FeatureSample)
  /-- Nothing left but to unlock. -/
  | done
deriving DecidableEq

/-- The requests a device can start with; Enroll is sent for a real user, a number of type
`int` like all arguments of the bus. -/
def Job.isRequest : Job → Bool
  | .enroll uid _ => 0 ≤ uid ∧ IsCInt uid
  | .clean .. => true
  | .rename .. => true
  | _ => false

/-- The user an enroll is under way for. -/
def Job.enrollUid : Job → Option ℤ
  | .enroll uid _ => some uid
  | .enrolling uid .. => some uid
  | _ => none

/-- The daemon: the database, the users' UUIDs and what each device is doing. -/
structure FleetState (ι : Type*) where
  db : EigenInfo
  uuidOf : ℤ → String
  jobs : ι → Option Job

/-- A step of the daemon. -/
inductive FleetAction (ι : Type*)
  /-- A request takes the mutex of `d`. -/
  | request (d : ι) (job : Job)
  /-- The job of `d` goes on to its next access to the database, whose SQL calls
  have the given outcomes; an enroll stores `sampleNo`, an `int`, and `eigenData`. -/
  | proceed (d : ι) (outcomes : List Bool) (sampleNo : ℤ) (eigenData : Bytes)
  /-- The mutex of `d` is unlocked. -/
  | release (d : ι)
  /-- The system-level clean of a Clean on all drivers. -/
  | systemClean (uid idxStart idxEnd : ℤ) (outcomes : List Bool)
  /-- A user gets another UUID. -/
  | setUuid (uid : ℤ) (uuid : String)

section Step

variable {ι : Type*} [DecidableEq ι]

/-- `d` goes on with `job`. -/
def FleetState.setJob (s : FleetState ι) (d : ι) (job : Option Job) : FleetState ι :=
  { s with jobs := Function.update s.jobs d job }

/-- The next access of a job to the database; an enroll crashes when its index leaves `int`. -/
def proceedJob (dev : BioDev) (db : EigenInfo) (uuidOf : ℤ → String) (outcomes : List Bool)
    (sampleNo : ℤ) (eigenData : Bytes) : Job → Option (EigenInfo × Job)
  | .enroll uid idxName => do
    let idx ← bioCommonGetEmptyIndexInt uuidOf db dev uid 0 (-1)
    some (db, .enrolling uid idx idxName)
  | .enrolling uid idx idxName => do
    let (_, c) ← bioStoSetFeatureInfo uuidOf ⟨db, outcomes⟩
      [{ uid := uid, biotype := dev.biotype.code, driver := dev.deviceName, index := idx,
         indexName := idxName, samples := [⟨0, sampleNo, eigenData⟩] }]
    some (c.db, .done)
  | .clean uid idxStart idxEnd =>
    some ((bioStoCleanFeatureInfo ⟨db, outcomes⟩ (dev.query uid idxStart idxEnd)).2.db, .done)
  | .rename uid idx newName => do
    let infos ← bioStoGetFeatureInfo uuidOf db (dev.query uid idx idx)
    some (db, .updating uid idx newName (renameTargets infos uid idx))
  | .updating uid idx newName (s :: todo) =>
    some ((renameSample dev uid idx newName (⟨db, outcomes⟩, 0, 0) s).1.db,
      .updating uid idx newName todo)
  | .updating _ _ _ [] => some (db, .done)
  | .done => none

/-- A step of the daemon; `none` where it is not enabled or crashes. -/
def FleetState.step [Fintype ι] (fl : Fleet ι) (s : FleetState ι) :
    FleetAction ι → Option (FleetState ι)
  | .request d job =>
    if s.jobs d = none ∧ job.isRequest = true then some (s.setJob d (some job)) else none
  | .proceed d outcomes sampleNo eigenData =>
    if IsCInt sampleNo then
      ((s.jobs d).bind (proceedJob (fl.dev d) s.db s.uuidOf outcomes sampleNo eigenData)).map
        fun (db, job) => { s.setJob d (some job) with db := db }
    else none
  | .release d => some (s.setJob d none)
  | .systemClean uid idxStart idxEnd outcomes =>
    some { s with db := (bioStoCleanFeatureInfo ⟨s.db, outcomes⟩
      ⟨uid, -1, none, idxStart, idxEnd⟩).2.db }
  | .setUuid uid uuid =>
    if ∀ d, (s.jobs d).bind Job.enrollUid ≠ some uid then
      some { s with uuidOf := Function.update s.uuidOf uid uuid }
    else none

/-- The daemon on an empty database. -/
def FleetState.init (uuidOf : ℤ → String) : FleetState ι where
  db := EigenInfo.empty
  uuidOf := uuidOf
  jobs := fun _ => none

end Step

/-! ### The invariant -/

/-- What holds of the table. -/
structure RowsOk (db : EigenInfo) : Prop where
  /-- No two rows have the same key. -/
  keys : (db.rows.map EigenRow.key).Nodup
  uid : ∀ r ∈ db.rows, 0 ≤ r.uid
  bioType : ∀ r ∈ db.rows, 0 ≤ r.bioType
  uuid : ∀ r ∈ db.rows, r.uuid ≠ none
  ints : ∀ r ∈ db.rows, r.Ints

/-- The key of the row an enroll is about to insert. -/
def enrollKey (dev : BioDev) (uuidOf : ℤ → String) (uid idx : ℤ) : FeatureKey where
  uid := uid
  uuid := some (uuidOf uid)
  bioType := dev.biotype.code
  driver := dev.deviceName
  eigenIndex := idx

/-- What holds of a job of the device `dev`. -/
def JobOk (dev : BioDev) (uuidOf : ℤ → String) (db : EigenInfo) : Job → Prop
  | .enroll uid _ => 0 ≤ uid ∧ IsCInt uid
  -- the index is still free
  | .enrolling uid idx _ => 0 ≤ uid ∧ (IsCInt uid ∧ IsCInt idx) ∧
      ∀ r ∈ db.rows, r.key ≠ enrollKey dev uuidOf uid idx
  -- the rows to be renamed still have the key they were listed with
  | .updating uid idx _ todo => ∀ s ∈ todo, s.dbid ≤ db.seq ∧
      ∀ r ∈ db.rows, r.id = s.dbid → r.Repeats dev uid idx s.no
  | _ => True

/-- The invariant of the runs. -/
structure FleetInv {ι : Type*} (fl : Fleet ι) (s : FleetState ι) : Prop where
  rows : RowsOk s.db
  jobs : ∀ d job, s.jobs d = some job → JobOk (fl.dev d) s.uuidOf s.db job

theorem RowsOk.shrinks {db db' : EigenInfo} (h : RowsOk db) (hs : Shrinks db db') :
    RowsOk db' where
  -- each row that is left was there before, with the same key and number
  keys := hs.keys h.keys
  uid := by
    intro r' hr'
    obtain ⟨r, hr, -, hkey, -⟩ := hs.exists_row hr'
    rw [← EigenRow.key_uid, ← hkey]
    exact h.uid r hr
  bioType := by
    intro r' hr'
    obtain ⟨r, hr, -, hkey, -⟩ := hs.exists_row hr'
    rw [← EigenRow.key_bioType, ← hkey]
    exact h.bioType r hr
  uuid := by
    intro r' hr'
    obtain ⟨r, hr, -, hkey, -⟩ := hs.exists_row hr'
    rw [← EigenRow.key_uuid, ← hkey]
    exact h.uuid r hr
  -- the columns of the key and the number are those of that row
  ints := by
    intro r' hr'
    obtain ⟨r, hr, -, hkey, hno, -⟩ := hs.exists_row hr'
    obtain ⟨huid, -, hbio, -, hidx⟩ := EigenRow.key_eq_iff.mp hkey
    have hints := h.ints r hr
    exact ⟨huid ▸ hints.uid, hbio ▸ hints.bioType, hidx ▸ hints.eigenIndex, hno ▸ hints.sampleNo⟩

/-- Inserting a row with a free key. -/
theorem RowsOk.insert {db : EigenInfo} (h : RowsOk db) {uid bioType idx : ℤ}
    {uuid driver : String} (name : String) {n : ℤ} (data : Bytes) (huid : 0 ≤ uid)
    (hbio : 0 ≤ bioType) (hints : IsCInt uid ∧ IsCInt bioType ∧ IsCInt idx ∧ IsCInt n)
    (hfree : ∀ r ∈ db.rows, r.key ≠ ⟨uid, some uuid, bioType, driver, idx⟩) :
    RowsOk (db.insert uid uuid bioType driver idx name n data) := by
  have hrows : (db.insert uid uuid bioType driver idx name n data).rows =
    db.rows ++ [⟨db.seq + 1, uid, some uuid, bioType, driver, idx, name, n, data⟩] := rfl
  refine ⟨?_, ?_, ?_, ?_, ?_⟩ <;> rw [hrows]
  · rw [List.map_append, List.nodup_append]
    refine ⟨h.keys, by simp, ?_⟩
    intro k hk k' hk' heq
    obtain ⟨r, hr, rfl⟩ := List.mem_map.mp hk
    rw [List.map_singleton, List.mem_singleton] at hk'
    exact hfree r hr (heq.trans hk')
  · simpa [or_imp, forall_and] using ⟨h.uid, huid⟩
  · simpa [or_imp, forall_and] using ⟨h.bioType, hbio⟩
  · simpa [or_imp, forall_and] using h.uuid
  · rw [List.forall_mem_append, List.forall_mem_singleton]
    exact ⟨h.ints, hints.1, hints.2.1, hints.2.2.1, hints.2.2.2⟩

section Jobs

variable {dev : BioDev} {uuidOf : ℤ → String} {db db' : EigenInfo} {job : Job}

/-- What a job relies on survives the loss and the renaming of rows. -/
theorem JobOk.shrinks (h : JobOk dev uuidOf db job) (hs : Shrinks db db') :
    JobOk dev uuidOf db' job := by
  cases job with
  | enroll uid idxName => exact h
  | enrolling uid idx idxName =>
    obtain ⟨huid, hints, hfree⟩ := h
    refine ⟨huid, hints, fun r' hr' hkey' => ?_⟩
    obtain ⟨r, hr, -, hkey, -⟩ := hs.exists_row hr'
    exact hfree r hr (hkey.trans hkey')
  | clean uid idxStart idxEnd => trivial
  | rename uid idx newName => trivial
  | updating uid idx newName todo =>
    intro s hmem
    exact ⟨by rw [hs.seq]; exact (h s hmem).1, hs.repeats (h s hmem).2⟩
  | done => trivial

/-- It survives an insert for a device of another name. -/
theorem JobOk.insert (h : JobOk dev uuidOf db job) {uid bioType idx : ℤ} {uuid driver : String}
    (name : String) (n : ℤ) (data : Bytes) (hne : dev.deviceName ≠ driver) :
    JobOk dev uuidOf (db.insert uid uuid bioType driver idx name n data) job := by
  have hrows : (db.insert uid uuid bioType driver idx name n data).rows =
    db.rows ++ [⟨db.seq + 1, uid, some uuid, bioType, driver, idx, name, n, data⟩] := rfl
  cases job with
  | enroll uid idxName => exact h
  | enrolling uid' idx' idxName =>
    obtain ⟨huid', hints, hfree⟩ := h
    refine ⟨huid', hints, fun r hr hkey => ?_⟩
    rw [hrows, List.mem_append, List.mem_singleton] at hr
    rcases hr with hr | rfl
    · exact hfree r hr hkey
    · have : driver = dev.deviceName := congrArg FeatureKey.driver hkey
      exact hne this.symm
  | clean uid idxStart idxEnd => trivial
  | rename uid idx newName => trivial
  | updating uid' idx' newName todo =>
    intro s hmem
    obtain ⟨hle, hrep⟩ := h s hmem
    refine ⟨hle.trans (Nat.le_succ _), fun r hr hid => ?_⟩
    rw [hrows, List.mem_append, List.mem_singleton] at hr
    rcases hr with hr | rfl
    · exact hrep r hr hid
    · -- the new row has an `ID` that was never listed
      simp only at hid
      omega
  | done => trivial

/-- It survives another UUID for a user who is not being enrolled. -/
theorem JobOk.setUuid (h : JobOk dev uuidOf db job) {uid : ℤ} (uuid : String)
    (hne : job.enrollUid ≠ some uid) : JobOk dev (Function.update uuidOf uid uuid) db job := by
  cases job with
  | enroll uid idxName => exact h
  | enrolling uid' idx' idxName =>
    have huid : uid' ≠ uid := fun heq => hne (by rw [heq]; rfl)
    refine ⟨h.1, h.2.1, ?_⟩
    rw [enrollKey, Function.update_of_ne huid]
    exact h.2.2
  | clean uid idxStart idxEnd => trivial
  | rename uid idx newName => trivial
  | updating uid' idx' newName todo => exact h
  | done => trivial

/-- Every feature listed of such a table is of a real user. -/
theorem RowsOk.uid_of_mem_features (hrows : RowsOk db) {q : FeatureQuery}
    {infos : List FeatureInfo} (hread : bioStoGetFeatureInfo uuidOf db q = some infos)
    {info : FeatureInfo} (hinfo : info ∈ infos) : 0 ≤ info.uid := by
  obtain ⟨r, hr, -, -, heq⟩ := exists_row_of_mem_features hread hinfo
  rw [heq, (hrows.ints r hr).columns]
  exact hrows.uid r hr

/-- Of one user, one feature is listed for each key that is current. -/
theorem RowsOk.bioStoGetFeatureInfo_eq (hrows : RowsOk db) {uid start endIdx : ℤ}
    (huid : uid ≠ -1) : bioStoGetFeatureInfo uuidOf db (dev.query uid start endIdx) =
      some (featuresOf (currentRows uuidOf db (dev.query uid start endIdx))) := by
  rw [(bioStoGetFeatureInfo_eq_some_iff uuidOf huid dev.biotype.code_nonneg).mpr
    ⟨rfl, fun r hr _ => hrows.uuid r hr⟩,
    userFeatures_eq huid fun r hr => (hrows.ints r (mem_currentRows.mp hr).1).columns]

/-- Where every row is of a real user, a rename lists rows with the key it is about. -/
theorem renameTargets_repeats_of_rows {uid idx : ℤ} {infos : List FeatureInfo}
    (hrows : RowsOk db)
    (hread : bioStoGetFeatureInfo uuidOf db (dev.query uid idx idx) = some infos) :
    ∀ s ∈ renameTargets infos uid idx, s.dbid ≤ db.seq ∧
      ∀ r ∈ db.rows, r.id = s.dbid → r.Repeats dev uid idx s.no := by
  by_cases huid : uid = -1
  · -- no row, hence no listed feature, has uid `-1`
    intro s hs
    obtain ⟨info, hinfo, -⟩ := List.mem_flatMap.mp hs
    obtain ⟨hinfo, hof⟩ := List.mem_filter.mp hinfo
    obtain ⟨hiuid, -⟩ : info.uid = uid ∧ info.index = idx := by simpa using hof
    have := hrows.uid_of_mem_features hread hinfo
    omega
  · rw [hrows.bioStoGetFeatureInfo_eq huid, Option.some.injEq] at hread
    subst hread
    exact renameTargets_repeats
      (fun r hr => mem_selectRows.mpr ⟨(mem_currentRows.mp hr).1, (mem_currentRows.mp hr).2.1⟩)
      fun r hr => (hrows.ints r (mem_currentRows.mp hr).1).sampleNo

/-- **What one step of a job does.** Its job stays in order, and the table shrinks
or gets the row the enroll holds the index for. -/
theorem proceedJob_cases {outcomes : List Bool} {n : ℤ} {data : Bytes} {job' : Job}
    (hrows : RowsOk db) (hjob : JobOk dev uuidOf db job)
    (h : proceedJob dev db uuidOf outcomes n data job = some (db', job')) :
    JobOk dev uuidOf db' job' ∧ (Shrinks db db' ∨
      ∃ uid idx name, job = .enrolling uid idx name ∧ db' = db.insert uid (uuidOf uid)
        dev.biotype.code dev.deviceName idx name n data) := by
  cases job with
  | enroll uid idxName =>
    -- the index is chosen, and no row has its key
    obtain ⟨huid, hint⟩ := hjob
    have hne : uid ≠ -1 := by omega
    obtain ⟨i, hi, h⟩ := Option.bind_eq_some_iff.mp h
    obtain ⟨hidx, hleast⟩ :=
      isLeast_of_bioCommonGetEmptyIndexInt (fun r hr => (hrows.ints r hr).eigenIndex) hne hi
    obtain ⟨rfl, rfl⟩ := Prod.mk.inj (Option.some.inj h)
    refine ⟨⟨huid, ⟨hint, hidx⟩, fun r hr hkey => hleast.1.2 ?_⟩, Or.inl (Shrinks.refl _)⟩
    obtain ⟨h₁, h₂, h₃, h₄, h₅⟩ := FeatureKey.mk.inj hkey
    exact ⟨r, hr, by simp [EigenRow.isCurrent, h₁, h₂], h₁, h₃, h₄, h₅⟩
  | enrolling uid idx idxName =>
    -- the `INSERT` fails, or the row is there
    have huid : uid ≠ -1 := by
      have := hjob.1
      omega
    obtain ⟨ret, c, hset, hc⟩ := bioStoSetFeatureInfo_single uuidOf ⟨db, outcomes⟩
      { uid := uid, biotype := dev.biotype.code, driver := dev.deviceName, index := idx,
        indexName := idxName, samples := [] } ⟨0, n, data⟩
    simp only [proceedJob, hset, Option.bind_eq_bind, Option.bind_some, Option.some.injEq,
      Prod.mk.injEq] at h
    obtain ⟨rfl, rfl⟩ := h
    refine ⟨trivial, ?_⟩
    rcases hc with ⟨-, hc⟩ | ⟨-, hc⟩
    · left
      rw [hc]
      exact Shrinks.refl _
    · right
      rw [if_neg huid] at hc
      exact ⟨uid, idx, idxName, rfl, hc⟩
  | clean uid idxStart idxEnd =>
    -- a `DELETE` only takes rows away
    simp only [proceedJob, Option.some.injEq, Prod.mk.injEq] at h
    obtain ⟨rfl, rfl⟩ := h
    exact ⟨trivial, Or.inl (Shrinks.clean ⟨db, outcomes⟩ _)⟩
  | rename uid idx newName =>
    -- the rows to be updated are read, with the columns they have
    simp only [proceedJob, Option.bind_eq_bind, Option.bind_eq_some_iff, Option.some.injEq,
      Prod.mk.injEq] at h
    obtain ⟨infos, hread, rfl, rfl⟩ := h
    exact ⟨renameTargets_repeats_of_rows hrows hread, Or.inl (Shrinks.refl _)⟩
  | updating uid idx newName todo =>
    -- each `UPDATE` sets the columns of a row to what they were, but for the name
    cases todo with
    | nil =>
      simp only [proceedJob, Option.some.injEq, Prod.mk.injEq] at h
      obtain ⟨rfl, rfl⟩ := h
      exact ⟨trivial, Or.inl (Shrinks.refl _)⟩
    | cons s todo =>
      simp only [proceedJob, Option.some.injEq, Prod.mk.injEq] at h
      obtain ⟨rfl, rfl⟩ := h
      have hs : Shrinks db _ := Shrinks.renameSample (c := ⟨db, outcomes⟩) newName 0 0
        (hjob s (by simp)).2
      have htodo : JobOk dev uuidOf db (.updating uid idx newName todo) :=
        fun s' hs' => hjob s' (by simp [hs'])
      exact ⟨htodo.shrinks hs, Or.inl hs⟩
  | done => simp [proceedJob] at h

end Jobs

/-! ### Runs -/

section Runs

variable {ι : Type*} [DecidableEq ι] {fl : Fleet ι} {s s' : FleetState ι}

omit [DecidableEq ι] in
theorem fleetInv_init (fl : Fleet ι) (uuidOf : ℤ → String) :
    FleetInv fl (FleetState.init uuidOf) where
  rows := ⟨by simp [FleetState.init], by simp [FleetState.init], by simp [FleetState.init],
    by simp [FleetState.init], by simp [FleetState.init]⟩
  jobs := by simp [FleetState.init]

/-- A step that lets the table shrink and leaves the jobs in order. -/
theorem FleetInv.shrinks (h : FleetInv fl s) {db' : EigenInfo} (hs : Shrinks s.db db')
    {d : ι} {job' : Option Job}
    (hjob : ∀ job, job' = some job → JobOk (fl.dev d) s.uuidOf db' job) :
    FleetInv fl { s.setJob d job' with db := db' } where
  rows := h.rows.shrinks hs
  jobs := by
    intro d' job hd'
    by_cases heq : d' = d
    · subst heq
      exact hjob job (by simpa [FleetState.setJob] using hd')
    · exact (h.jobs d' job (by simpa [FleetState.setJob, heq] using hd')).shrinks hs

/-- The step in which an enroll of `d` inserts its row. -/
theorem FleetInv.insert (h : FleetInv fl s) {d : ι} {uid idx : ℤ} {idxName : String} {n : ℤ}
    (hn : IsCInt n) (data : Bytes) (hd : s.jobs d = some (.enrolling uid idx idxName)) :
    FleetInv fl { s.setJob d (some .done) with
      db := s.db.insert uid (s.uuidOf uid) (fl.dev d).biotype.code (fl.dev d).deviceName idx
        idxName n data } where
  rows :=
    have hjob := h.jobs d _ hd
    h.rows.insert idxName data hjob.1 (fl.dev d).biotype.code_nonneg
      ⟨hjob.2.1.1, (fl.dev d).biotype.isCInt_code, hjob.2.1.2, hn⟩ hjob.2.2
  jobs := by
    intro d' job hd'
    by_cases heq : d' = d
    · subst heq
      obtain rfl : Job.done = job := by simpa [FleetState.setJob] using hd'
      trivial
    · exact (h.jobs d' job (by simpa [FleetState.setJob, heq] using hd')).insert idxName n data
        fun hname => heq (fl.deviceName_injective hname)

/-- **Step lemma.** Every step of the daemon keeps the invariant. -/
theorem FleetInv.step [Fintype ι] (h : FleetInv fl s) {a : FleetAction ι}
    (hstep : s.step fl a = some s') : FleetInv fl s' := by
  cases a with
  | request d job =>
    -- the new job is a request, about which nothing has to be known but the uid of an enroll
    simp only [FleetState.step] at hstep
    split at hstep
    · next hreq =>
      obtain rfl := Option.some.inj hstep
      refine h.shrinks (Shrinks.refl _) fun job' hjob' => ?_
      obtain rfl := Option.some.inj hjob'
      cases job with
      | enroll uid idxName =>
        have huid : 0 ≤ uid ∧ IsCInt uid := of_decide_eq_true hreq.2
        exact huid
      | clean uid idxStart idxEnd => trivial
      | rename uid idx newName => trivial
      | enrolling uid idx idxName => simp [Job.isRequest] at hreq
      | updating uid idx newName todo => simp [Job.isRequest] at hreq
      | done => trivial
    · simp at hstep
  | proceed d outcomes n data =>
    -- the job goes on: the table shrinks, or gets the row that an index was held for
    simp only [FleetState.step, Option.ite_none_right_eq_some, Option.map_eq_some_iff,
      Option.bind_eq_some_iff] at hstep
    obtain ⟨hn, ⟨db', job'⟩, ⟨job, hd, hproc⟩, rfl⟩ := hstep
    obtain ⟨hjob', hdb⟩ := proceedJob_cases h.rows (h.jobs d job hd) hproc
    rcases hdb with hs | ⟨uid, idx, idxName, rfl, rfl⟩
    · refine h.shrinks hs fun j hj => ?_
      obtain rfl := Option.some.inj hj
      exact hjob'
    · have hdone : job' = .done := by
        simp only [proceedJob, Option.bind_eq_bind, Option.bind_eq_some_iff, Option.some.injEq,
          Prod.mk.injEq] at hproc
        obtain ⟨_, _, -, rfl⟩ := hproc
        rfl
      rw [hdone]
      exact h.insert hn data hd
  | release d =>
    obtain rfl := Option.some.inj hstep
    exact h.shrinks (Shrinks.refl _) (by simp)
  | systemClean uid idxStart idxEnd outcomes =>
    obtain rfl := Option.some.inj hstep
    have hs := Shrinks.clean ⟨s.db, outcomes⟩ ⟨uid, -1, none, idxStart, idxEnd⟩
    exact ⟨h.rows.shrinks hs, fun d job hd => (h.jobs d job hd).shrinks hs⟩
  | setUuid uid uuid =>
    -- no enroll of the user is under way, so what is held for him is nothing
    simp only [FleetState.step] at hstep
    split at hstep
    · next hidle =>
      obtain rfl := Option.some.inj hstep
      exact ⟨h.rows, fun d job hd => (h.jobs d job hd).setUuid uuid fun heq =>
        hidle d (by rw [hd, Option.bind_some, heq])⟩
    · simp at hstep

/-- **Index assignment never collides.** In every state a run from the empty
database reaches, no two rows have the same key, and an enroll that reads its
index now gets the least one that no current feature of its user on its device
uses, while there is one of type `int`. -/
theorem index_runs [Fintype ι] (fl : Fleet ι) (uuidOf : ℤ → String) (as : List (FleetAction ι))
    (s : FleetState ι)
    (hrun : Machine.run (FleetState.step fl) (FleetState.init uuidOf) as = some s) :
    (s.db.rows.map EigenRow.key).Nodup ∧
    ∀ d uid idxName outcomes n data, s.jobs d = some (.enroll uid idxName) → IsCInt n →
      (∃ i, 0 ≤ i ∧ IsCInt i ∧ ¬ UsedIndex s.uuidOf s.db (fl.dev d) uid i) →
      ∃ idx, s.step fl (.proceed d outcomes n data) =
          some (s.setJob d (some (.enrolling uid idx idxName))) ∧
        IsLeast {i : ℤ | 0 ≤ i ∧ ¬ UsedIndex s.uuidOf s.db (fl.dev d) uid i} idx := by
  have hinv : FleetInv fl s := Machine.run_invariant (P := FleetInv fl)
    (fun _ _ _ hs hstep => hs.step hstep) (fleetInv_init fl uuidOf) hrun
  refine ⟨hinv.rows.keys, fun d uid idxName outcomes n data hd hn hfree => ?_⟩
  have huid : 0 ≤ uid := (hinv.jobs d _ hd).1
  have hne : uid ≠ -1 := by omega
  obtain ⟨idx, hidx, hleast⟩ := bioCommonGetEmptyIndexInt_isLeast
    (fun r hr => (hinv.rows.ints r hr).eigenIndex) hinv.rows.uuid hne hfree
  refine ⟨idx, ?_, hleast⟩
  simp [FleetState.step, hn, hd, proceedJob, hidx, FleetState.setJob]

end Runs

/-- Two fingerprint readers. -/
def twoReaders : Fleet Bool where
  dev d := ⟨if d then 1 else 0, if d then "uru4000" else "elan", true, 1, .fingerPrint,
    .eigenvalue, .usb, [], 0, 0, 0⟩
  deviceName_injective := by
    intro d d' h
    cases d <;> cases d' <;> simp_all

/-- A run in which two enrolls of one user, a rename and a system-level clean
interleave. -/
def interleavedRun : List (FleetAction Bool) :=
  [.request true (.enroll 7 "a"), .request false (.enroll 7 "b"), .proceed true [] 2 [81],
   .proceed false [] 2 [82], .proceed true [] 2 [81], .release true,
   .request true (.rename 7 0 "c"), .proceed true [] 0 [], .proceed false [] 2 [82],
   .systemClean 7 0 (-1) [], .proceed true [] 0 [], .release true,
   .request true (.enroll 7 "d")]

/-- `index_runs` on that run: the enroll that is left to read its index finds one. -/
theorem index_runs_interleaved :
    ∃ s, Machine.run (FleetState.step twoReaders) (FleetState.init fun _ => "u") interleavedRun =
        some s ∧ (s.db.rows.map EigenRow.key).Nodup ∧
      ∃ idx, IsLeast {i : ℤ | 0 ≤ i ∧ ¬ UsedIndex s.uuidOf s.db (twoReaders.dev true) 7 i} idx := by
  obtain ⟨s, hs⟩ : ∃ s, Machine.run (FleetState.step twoReaders)
      (FleetState.init fun _ => "u") interleavedRun = some s := ⟨_, rfl⟩
  have hjob : s.jobs true = some (.enroll 7 "d") := by
    obtain rfl := Option.some.inj hs
    rfl
  obtain ⟨hkeys, hleast⟩ := index_runs twoReaders (fun _ => "u") interleavedRun s hs
  have hfree : ∃ i, 0 ≤ i ∧ IsCInt i ∧ ¬ UsedIndex s.uuidOf s.db (twoReaders.dev true) 7 i := by
    obtain rfl := Option.some.inj hs
    refine ⟨5, by decide, by decide, ?_⟩
    rintro ⟨r, hr, -, -, -, -, hidx⟩
    revert hidx
    revert r
    decide +kernel
  obtain ⟨idx, -, hidx⟩ := hleast true 7 "d" [] 0 [] hjob (by decide) hfree
  exact ⟨s, hs, hkeys, idx, hidx⟩

end BiometricAuth
