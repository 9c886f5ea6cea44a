import BiometricAuth.Codec.Template
import BiometricAuth.Common.FreeIndex
import BiometricAuth.Common.RenameFrame
import BiometricAuth.Lib.Machine
import BiometricAuth.Storage.Print

/-!
# Prints in the database

How the community driver writes an enrolled print (`storeTemplate`, the middle of
`on_enroll_completed`) and reads prints back (`createPrints`, `create_prints`),
and what becomes of the prints over whole runs of enrolls, renames and cleans.

Both print the features they are about with `print_feature_info`, whose columns take 1024 bytes, so
a long name overruns the stack in the enroll, or after a rename in the next `create_prints`. And the
loops that encrypt and encode a print count in `int`s.

`PrintsOp` is one such operation and `PrintsState.step` runs it. Next to the
database the state remembers which enrolment each row was inserted by; no
operation reads that. The key and the users' UUIDs stay the same along a run.

Main result: `prints_runs` — in a run whose names and prints are short enough (`PrintsOp.Fits`), no
operation writes past the end of a buffer or crashes, every row there is decodes to the print that
was enrolled into it, and `create_prints` for one user hands exactly those prints to
`fp_print_deserialize`, one per row, in the order of the list.
-/

namespace BiometricAuth

/-- The feature an enrolled print is printed and inserted as. -/
def templateFeature (dev : BioDev) (uid idx : ℤ) (idxName : String) (print featureEncode : Bytes) :
    FeatureInfo where
  uid := uid
  biotype := dev.biotype.code
  driver := dev.deviceName
  index := idx
  indexName := idxName
  samples := [⟨0, print.length, featureEncode⟩]

/-- The part of `on_enroll_completed` that stores a serialized print. -/
def storeTemplate (uuidOf : ℤ → String) (key : Bytes) (c : Store) (dev : BioDev) (uid idx : ℤ)
    (idxName : String) (print : Bytes) : Option (ℤ × Store) := do
  let featureEncode ← encodeTemplate key print
  printList [templateFeature dev uid idx idxName print featureEncode]
  bioStoSetFeatureInfo uuidOf c [templateFeature dev uid idx idxName print featureEncode]

theorem templateFeature_printable {dev : BioDev} {uid idx : ℤ} (huid : IsCInt uid)
    (hidx : IsCInt idx) (idxName : String) (print featureEncode : Bytes) :
    (templateFeature dev uid idx idxName print featureEncode).Printable :=
  ⟨huid, dev.biotype.isCInt_code, hidx, List.cons_ne_nil _ _⟩

/-- One row is inserted, or nothing is. -/
theorem storeTemplate_cases {uuidOf : ℤ → String} {key : Bytes} {c c' : Store} {dev : BioDev}
    {uid idx ret : ℤ} {idxName : String} {print : Bytes}
    (h : storeTemplate uuidOf key c dev uid idx idxName print = some (ret, c')) :
    (c.inserts = true ∧ ret = 0 ∧ ∃ featureEncode, encodeTemplate key print = some featureEncode ∧
      c'.db = c.db.insert uid (if uid = -1 then "" else uuidOf uid) dev.biotype.code dev.deviceName
        idx idxName print.length featureEncode) ∨
    c.inserts = false ∧ ret ≠ 0 ∧ c'.db = c.db := by
  obtain ⟨featureEncode, hencode, h⟩ := Option.bind_eq_some_iff.mp h
  obtain ⟨⟨⟩, -, hset⟩ := Option.bind_eq_some_iff.mp h
  obtain ⟨ret', c'', hset', hdb⟩ := bioStoSetFeatureInfo_single uuidOf c
    { uid := uid, biotype := dev.biotype.code, driver := dev.deviceName, index := idx,
      indexName := idxName, samples := [] } ⟨0, print.length, featureEncode⟩
  obtain ⟨rfl, rfl⟩ := Prod.mk.inj (Option.some.inj (hset'.symm.trans hset))
  have hzero := bioStoSetFeatureInfo_single_eq_zero hset'
  rcases hdb with ⟨hne, hdb⟩ | ⟨rfl, hdb⟩
  · exact .inr ⟨by simpa [hzero] using hne, hne, hdb⟩
  · exact .inl ⟨hzero.mp rfl, rfl, featureEncode, hencode, hdb⟩

/-- `create_prints`: what `deserialize` makes of the samples of the list. -/
def createPrints {π : Type*} (deserialize : Bytes → π) (uuidOf : ℤ → String) (key : Bytes)
    (db : EigenInfo) (dev : BioDev) (uid idxStart idxEnd : ℤ) : Option (List π) :=
  ((listFeatureInfo uuidOf db (dev.query uid idxStart idxEnd)).bind fun infos =>
    (infos.flatMap FeatureInfo.samples).mapM (decodeTemplate key)).map (List.map deserialize)

/-- Each of the prints is made from a sample of the list. -/
theorem exists_sample_of_mem_createPrints {π : Type*} {deserialize : Bytes → π}
    {uuidOf : ℤ → String} {key : Bytes} {db : EigenInfo} {dev : BioDev} {uid idxStart idxEnd : ℤ}
    {prints : List π} {print : π}
    (h : createPrints deserialize uuidOf key db dev uid idxStart idxEnd = some prints)
    (hprint : print ∈ prints) :
    ∃ infos, listFeatureInfo uuidOf db (dev.query uid idxStart idxEnd) = some infos ∧
      ∃ info ∈ infos, ∃ sample ∈ info.samples,
        (decodeTemplate key sample).map deserialize = some print := by
  obtain ⟨datas, hdatas, rfl⟩ := Option.map_eq_some_iff.mp h
  obtain ⟨infos, hinfos, hdecode⟩ := Option.bind_eq_some_iff.mp hdatas
  obtain ⟨data, hdata, rfl⟩ := List.mem_map.mp hprint
  have hsample : ∀ {samples : List FeatureSample} {datas : List Bytes},
      samples.mapM (decodeTemplate key) = some datas → data ∈ datas →
      ∃ sample ∈ samples, decodeTemplate key sample = some data := by
    intro samples
    -- by induction on the samples, each of which makes a print of its own
    induction samples with
    | nil =>
      intro datas hdatas hdata
      obtain rfl := Option.some.inj hdatas
      cases hdata
    | cons sample samples ih =>
      intro datas hdatas hdata
      simp only [List.mapM_cons, Option.bind_eq_bind, Option.bind_eq_some_iff, Option.pure_def,
        Option.some.injEq] at hdatas
      obtain ⟨first, hfirst, rest, hrest, rfl⟩ := hdatas
      rcases List.mem_cons.mp hdata with rfl | hdata
      · exact ⟨sample, by simp, hfirst⟩
      · obtain ⟨later, hlater, hdecode⟩ := ih hrest hdata
        exact ⟨later, by simp [hlater], hdecode⟩
  obtain ⟨sample, hsample, hdecode⟩ := hsample hdecode hdata
  obtain ⟨info, hinfo, hsample⟩ := List.mem_flatMap.mp hsample
  exact ⟨infos, hinfos, info, hinfo, sample, hsample, congrArg (Option.map deserialize) hdecode⟩

/-! ### Runs -/

/-- What was enrolled into a row. -/
structure Enrolment where
  uid : ℤ
  biotype : ℤ
  driver : String
  index : ℤ
  print : Bytes

/-- An operation on the prints of the database. -/
inductive PrintsOp
  /-- An enroll on `dev` that completes with the serialized `print`. -/
  | enroll (dev : BioDev) (uid idx : ℤ) (idxName : String) (print : Bytes)
      (outcomes : List Bool)
  /-- A rename on `dev`. -/
  | rename (dev : BioDev) (uid idx : ℤ) (newName : String) (outcomes : List Bool)
  /-- A clean on `dev`. -/
  | clean (dev : BioDev) (uid idxStart idxEnd : ℤ) (outcomes : List Bool)
  /-- A clean of all drivers. -/
  | systemClean (uid idxStart idxEnd : ℤ) (outcomes : List Bool)

/-- A serialized print has at least two bytes, and the numbers of an enroll are of type `int`. -/
def PrintsOp.Ok : PrintsOp → Prop
  | .enroll _ uid idx _ print _ => IsCInt uid ∧ IsCInt idx ∧ 2 ≤ print.length
  | _ => True

/-- The database, and what was enrolled into the row with each `ID`. -/
structure PrintsState where
  db : EigenInfo
  enrolled : ℕ → Option Enrolment

/-- The index an enroll uses: `-1` asks for a free one. -/
def enrollIndex (uuidOf : ℤ → String) (db : EigenInfo) (dev : BioDev) (uid idx : ℤ) :
    Option ℤ :=
  if idx = -1 then bioCommonGetEmptyIndexInt uuidOf db dev uid 0 (-1) else some idx

theorem isCInt_of_enrollIndex {uuidOf : ℤ → String} {db : EigenInfo} {dev : BioDev}
    {uid idx i : ℤ} (hidx : IsCInt idx) (h : enrollIndex uuidOf db dev uid idx = some i) :
    IsCInt i := by
  unfold enrollIndex at h
  split at h
  · exact isCInt_of_bioCommonGetEmptyIndexInt (by decide) h
  · exact Option.some.inj h ▸ hidx

/-- One operation; `none` where it crashes. -/
def PrintsState.step (uuidOf : ℤ → String) (key : Bytes) (s : PrintsState) :
    PrintsOp → Option PrintsState
  | .enroll dev uid idx idxName print outcomes => do
    let idx ← enrollIndex uuidOf s.db dev uid idx
    let (ret, c) ← storeTemplate uuidOf key ⟨s.db, outcomes⟩ dev uid idx idxName print
    some {
      db := c.db
      enrolled :=
        if ret = 0 then
          Function.update s.enrolled (s.db.seq + 1)
            (some ⟨uid, dev.biotype.code, dev.deviceName, idx, print⟩)
        else s.enrolled }
  | .rename dev uid idx newName outcomes => do
    let (_, c) ← bioCommFeatureRenameByDb uuidOf ⟨s.db, outcomes⟩ dev uid idx newName
    some { s with db := c.db }
  | .clean dev uid idxStart idxEnd outcomes =>
    some { s with
      db := (bioStoCleanFeatureInfo ⟨s.db, outcomes⟩ (dev.query uid idxStart idxEnd)).2.db }
  | .systemClean uid idxStart idxEnd outcomes =>
    some { s with
      db := (bioStoCleanFeatureInfo ⟨s.db, outcomes⟩ ⟨uid, -1, none, idxStart, idxEnd⟩).2.db }

/-- The columns and the loops take what the operation brings: the driver and the name of the feature
fit into their columns, of a rename if there is such a feature; the characters of the print can be
counted, and the indices of the table as well. -/
def PrintsOp.Fits (uuidOf : ℤ → String) (s : PrintsState) : PrintsOp → Prop
  | .enroll dev uid idx idxName print _ =>
    print.length ≤ 1610612733 ∧ (idx = -1 → s.db.rows.length < 2 ^ 31 - 1) ∧
      ∀ i, enrollIndex uuidOf s.db dev uid idx = some i → FitsLine dev.deviceName i idxName
  | .rename dev uid idx newName _ =>
    (∃ r ∈ s.db.rows, r.Repeats dev uid idx r.sampleNo) → FitsLine dev.deviceName idx newName
  | _ => True

/-- The empty database. -/
def PrintsState.init : PrintsState where
  db := EigenInfo.empty
  enrolled := fun _ => none

/-! ### The invariant -/

/-- The UUID a row of user `uid` is inserted with: the writer looks up every uid
but `-1`. -/
def storedUuid (uuidOf : ℤ → String) (uid : ℤ) : String := if uid = -1 then "" else uuidOf uid

/-- `r` holds the print that `e` enrolled, under the key it was enrolled with. -/
structure EigenRow.Stores (key : Bytes) (r : EigenRow) (e : Enrolment) : Prop where
  uid : r.uid = e.uid
  bioType : r.bioType = e.biotype
  driver : r.driver = e.driver
  eigenIndex : r.eigenIndex = e.index
  /-- The text decodes to exactly `SampleNo` bytes, and these decrypt to the print. -/
  decodes : ∃ bytes, bioBase64DecodeLoop r.eigenData = some (r.sampleNo, bytes) ∧
    (bytes.length : ℤ) = r.sampleNo ∧ communityInternalAesDecrypt key bytes = some e.print

/-- The invariant of the runs. -/
structure PrintsInv (uuidOf : ℤ → String) (key : Bytes) (s : PrintsState) : Prop where
  ints : ∀ r ∈ s.db.rows, r.Ints
  bioType : ∀ r ∈ s.db.rows, 0 ≤ r.bioType
  uuid : ∀ r ∈ s.db.rows, r.uuid = some (storedUuid uuidOf r.uid)
  fits : ∀ r ∈ s.db.rows, r.toFeature.Fits
  stores : ∀ r ∈ s.db.rows, ∃ e, s.enrolled r.id = some e ∧ r.Stores key e

section Inv

variable {uuidOf : ℤ → String} {key : Bytes} {s : PrintsState}

theorem printsInv_init (uuidOf : ℤ → String) (key : Bytes) :
    PrintsInv uuidOf key PrintsState.init := by
  constructor <;> simp [PrintsState.init]

/-- Losing rows and names keeps the invariant, where the names fit. -/
theorem PrintsInv.shrinks (h : PrintsInv uuidOf key s) {db' : EigenInfo}
    (hs : Shrinks s.db db') (hfits : ∀ r ∈ db'.rows, r.toFeature.Fits) :
    PrintsInv uuidOf key { s with db := db' } where
  ints := by
    intro r' hr'
    -- the row was there before, with the same columns but the name
    obtain ⟨r, hr, -, hkey, hno, -⟩ := hs.exists_row hr'
    obtain ⟨huid, -, hbio, -, hidx⟩ := EigenRow.key_eq_iff.mp hkey
    -- so its columns are `int`s still
    have hints := h.ints r hr
    exact ⟨huid ▸ hints.uid, hbio ▸ hints.bioType, hidx ▸ hints.eigenIndex, hno ▸ hints.sampleNo⟩
  bioType := by
    intro r' hr'
    obtain ⟨r, hr, -, hkey, -⟩ := hs.exists_row hr'
    rw [← EigenRow.key_bioType, ← hkey]
    exact h.bioType r hr
  uuid := by
    intro r' hr'
    obtain ⟨r, hr, -, hkey, -⟩ := hs.exists_row hr'
    rw [← EigenRow.key_uuid, ← EigenRow.key_uid, ← hkey]
    exact h.uuid r hr
  fits := hfits
  stores := by
    intro r' hr'
    -- the bytes of a sample stay with the id of its row
    obtain ⟨r, hr, hid, hkey, hno, hdata⟩ := hs.exists_row hr'
    obtain ⟨e, he, hst⟩ := h.stores r hr
    obtain ⟨h₁, -, h₂, h₃, h₄⟩ := EigenRow.key_eq_iff.mp hkey
    refine ⟨e, by rw [← hid]; exact he, ?_⟩
    exact ⟨h₁ ▸ hst.uid, h₂ ▸ hst.bioType, h₃ ▸ hst.driver, h₄ ▸ hst.eigenIndex,
      hno ▸ hdata ▸ hst.decodes⟩

/-- A clean takes rows away. -/
theorem PrintsInv.clean (h : PrintsInv uuidOf key s) (outcomes : List Bool) (q : FeatureQuery) :
    PrintsInv uuidOf key { s with db := (bioStoCleanFeatureInfo ⟨s.db, outcomes⟩ q).2.db } := by
  refine h.shrinks (Shrinks.clean ⟨s.db, outcomes⟩ q) fun r hr => h.fits r ?_
  rcases bioStoCleanFeatureInfo_cases ⟨s.db, outcomes⟩ q with ⟨-, hdb⟩ | ⟨-, hdb⟩
  · rwa [hdb] at hr
  · rw [hdb] at hr
    exact (List.mem_filter.mp hr).1

/-- So does inserting a row that stores what it is remembered for. -/
theorem PrintsInv.insert (h : PrintsInv uuidOf key s) {uid idx : ℤ} {dev : BioDev}
    {idxName : String} {text print bytes : Bytes} (hints : IsCInt uid ∧ IsCInt idx)
    (hprint : IsStorable print) (hfits : FitsLine dev.deviceName idx idxName)
    (hdec : bioBase64DecodeLoop text = some ((bytes.length : ℤ), bytes))
    (hlen : bytes.length = print.length)
    (hdecrypt : communityInternalAesDecrypt key bytes = some print) :
    PrintsInv uuidOf key {
      db := s.db.insert uid (storedUuid uuidOf uid) dev.biotype.code dev.deviceName idx idxName
        print.length text
      enrolled := Function.update s.enrolled (s.db.seq + 1)
        (some ⟨uid, dev.biotype.code, dev.deviceName, idx, print⟩) } where
  -- the columns of the row are `int`s, as is the length of what it stores
  ints := by
    intro r hr
    rcases List.mem_append.mp hr with hr | hr
    · exact h.ints r hr
    · rw [List.mem_singleton.mp hr]
      have hno : IsCInt (print.length : ℤ) := ⟨by omega, by have hupper := hprint.2; omega⟩
      exact ⟨hints.1, dev.biotype.isCInt_code, hints.2, hno⟩
  bioType := by
    intro r hr
    rcases List.mem_append.mp hr with hr | hr
    · exact h.bioType r hr
    · rw [List.mem_singleton.mp hr]
      exact dev.biotype.code_nonneg
  uuid := by
    intro r hr
    rcases List.mem_append.mp hr with hr | hr
    · exact h.uuid r hr
    · rw [List.mem_singleton.mp hr]
  fits := by
    intro r hr
    rcases List.mem_append.mp hr with hr | hr
    · exact h.fits r hr
    · rw [List.mem_singleton.mp hr]
      exact hfits
  -- the `ID` is a new one, so that no other row is remembered under it
  stores := by
    intro r hr
    rcases List.mem_append.mp hr with hr | hr
    · obtain ⟨e, he, hst⟩ := h.stores r hr
      have hid := s.db.ids_le_seq r hr
      have hne : r.id ≠ s.db.seq + 1 := by omega
      exact ⟨e, by simpa [Function.update_of_ne hne] using he, hst⟩
    · rw [List.mem_singleton.mp hr]
      refine ⟨_, Function.update_self _ _ _, rfl, rfl, rfl, rfl, bytes, ?_, ?_, hdecrypt⟩
      · rw [hdec, hlen]
      · rw [hlen]

/-- An enroll finds an index while there are fewer rows than indices. -/
theorem PrintsInv.enrollIndex (h : PrintsInv uuidOf key s) (dev : BioDev) (uid : ℤ) {idx : ℤ}
    (hshort : idx = -1 → s.db.rows.length < 2 ^ 31 - 1) :
    ∃ i, enrollIndex uuidOf s.db dev uid idx = some i := by
  unfold BiometricAuth.enrollIndex
  split
  · next hidx =>
    obtain ⟨cur, hread⟩ := bioStoGetFeatureInfo_of_uuid uuidOf s.db (dev.query uid 0 (-1))
      (fun r hr => (h.ints r hr).columns) h.bioType h.uuid
    refine exists_bioCommonGetEmptyIndexInt hread ?_ ?_
    · intro info hinfo
      obtain ⟨i, hi⟩ : ∃ i, info.index = i := ⟨_, rfl⟩
      obtain ⟨r, hr, hri⟩ := mem_featuresOf_index.mp ⟨info, hinfo, hi⟩
      obtain ⟨hrow, hselects⟩ := mem_selectRows.mp (List.mem_filter.mp hr).1
      rw [hi, ← hri]
      exact ⟨(FeatureQuery.selects_iff.mp hselects).1, (h.ints r hrow).eigenIndex⟩
    · refine lt_of_le_of_lt ?_ (hshort hidx)
      refine (featuresOf_length_le _).trans ((List.length_filter_le _ _).trans ?_)
      rw [(selectRows_perm s.db _).length_eq]
      exact List.length_filter_le _ _
  · exact ⟨idx, rfl⟩

/-- The rows after a rename that fits. -/
theorem PrintsInv.rename (h : PrintsInv uuidOf key s) {dev : BioDev} {uid idx : ℤ}
    {newName : String} (outcomes : List Bool)
    (hop : (∃ r ∈ s.db.rows, r.Repeats dev uid idx r.sampleNo) →
      FitsLine dev.deviceName idx newName) :
    ∃ ret c, bioCommFeatureRenameByDb uuidOf ⟨s.db, outcomes⟩ dev uid idx newName =
      some (ret, c) ∧ PrintsInv uuidOf key { s with db := c.db } := by
  obtain ⟨ret, c, hren, hs⟩ := Shrinks.rename uuidOf (c := ⟨s.db, outcomes⟩) dev uid idx newName
    h.ints h.bioType h.uuid
  refine ⟨ret, c, hren, h.shrinks hs fun r' hr' => ?_⟩
  obtain ⟨cur, hread⟩ := bioStoGetFeatureInfo_of_uuid uuidOf s.db (dev.query uid idx idx)
    (fun r hr => (h.ints r hr).columns) h.bioType h.uuid
  obtain ⟨c', hren', -, hrows⟩ :=
    bioCommFeatureRenameByDb_eq (c := ⟨s.db, outcomes⟩) newName hread
  obtain ⟨-, rfl⟩ := Prod.mk.inj (Option.some.inj (hren.symm.trans hren'))
  rw [hrows] at hr'
  obtain ⟨r, hr, rfl⟩ := List.mem_map.mp hr'
  split
  · -- the row has been updated, so it is one that the rename is about
    next hupdate =>
    obtain ⟨u, hu, hid, -⟩ := hupdate
    have htarget := List.mem_map_of_mem (f := Prod.fst) hu
    rw [renameUpdates, updatesOf_map_fst] at htarget
    have hrep := (renameTargets_repeats (fun r hr => (List.mem_filter.mp hr).1)
      (fun r hr => (h.ints r (mem_selectRows.mp (List.mem_filter.mp hr).1).1).sampleNo)
      u.1 htarget).2 r hr hid.symm
    exact hop ⟨r, hr, hrep.uid, hrep.bioType, hrep.driver, hrep.eigenIndex, rfl⟩
  · exact h.fits r hr

/-- An enroll of a print that can be stored, with a name that fits. -/
theorem PrintsInv.storeTemplate (hkey : 16 ≤ key.length) (h : PrintsInv uuidOf key s)
    {dev : BioDev} {uid idx : ℤ} {idxName : String} {print : Bytes} (outcomes : List Bool)
    (hints : IsCInt uid ∧ IsCInt idx) (hprint : IsStorable print)
    (hfits : FitsLine dev.deviceName idx idxName) :
    ∃ ret c, storeTemplate uuidOf key ⟨s.db, outcomes⟩ dev uid idx idxName print =
      some (ret, c) ∧ PrintsInv uuidOf key {
        db := c.db
        enrolled :=
          if ret = 0 then
            Function.update s.enrolled (s.db.seq + 1)
              (some ⟨uid, dev.biotype.code, dev.deviceName, idx, print⟩)
          else s.enrolled } := by
  -- the print is encoded, and what is stored decodes to it
  obtain ⟨text, henc, bytes, hdec, hlen, hdecrypt⟩ := encodeTemplate_spec hkey hprint
  -- the list that is printed has one feature, whose line fits
  have hprinted : printList [templateFeature dev uid idx idxName print text] = some () :=
    printList_of_fits
      (List.forall_mem_singleton.mpr (templateFeature_printable hints.1 hints.2 _ _ _))
      (List.forall_mem_singleton.mpr hfits)
  obtain ⟨ret, c, hset, -⟩ := bioStoSetFeatureInfo_single uuidOf ⟨s.db, outcomes⟩
    { uid := uid, biotype := dev.biotype.code, driver := dev.deviceName, index := idx,
      indexName := idxName, samples := [] } ⟨0, print.length, text⟩
  have hstore : BiometricAuth.storeTemplate uuidOf key ⟨s.db, outcomes⟩ dev uid idx idxName print =
      some (ret, c) := by
    rw [BiometricAuth.storeTemplate, henc, Option.bind_eq_bind, Option.bind_some, hprinted]
    exact hset
  refine ⟨ret, c, hstore, ?_⟩
  -- the row is inserted
  rcases storeTemplate_cases hstore with ⟨-, rfl, text', henc', hc⟩ | ⟨-, hret, hc⟩
  · obtain rfl := Option.some.inj (henc.symm.trans henc')
    rw [if_pos rfl, hc]
    exact h.insert hints hprint hfits hdec hlen hdecrypt
  · -- or the `INSERT` fails, and nothing was stored
    rw [if_neg hret, hc]
    exact h

/-- **Step lemma.** No operation that fits crashes, and each keeps the invariant. -/
theorem PrintsInv.step (hkey : 16 ≤ key.length) (h : PrintsInv uuidOf key s) {op : PrintsOp}
    (hop : op.Ok) (hfits : op.Fits uuidOf s) :
    ∃ s', s.step uuidOf key op = some s' ∧ PrintsInv uuidOf key s' := by
  cases op with
  | enroll dev uid idx idxName print outcomes =>
    obtain ⟨huid, hidx, hlower⟩ := hop
    obtain ⟨hupper, hshort, hline⟩ := hfits
    obtain ⟨i, hi⟩ := h.enrollIndex dev uid hshort
    obtain ⟨ret, c, hstore, h'⟩ := h.storeTemplate hkey outcomes
      ⟨huid, isCInt_of_enrollIndex hidx hi⟩ ⟨hlower, hupper⟩ (hline i hi)
    refine ⟨_, ?_, h'⟩
    simp only [PrintsState.step, hi, hstore, Option.bind_eq_bind, Option.bind_some]
  | rename dev uid idx newName outcomes =>
    obtain ⟨ret, c, hren, h'⟩ := h.rename outcomes hfits
    exact ⟨_, by simp [PrintsState.step, hren], h'⟩
  | clean dev uid idxStart idxEnd outcomes => exact ⟨_, rfl, h.clean outcomes _⟩
  | systemClean uid idxStart idxEnd outcomes => exact ⟨_, rfl, h.clean outcomes _⟩

/-- **Run lemma.** -/
theorem PrintsInv.run (hkey : 16 ≤ key.length) (h : PrintsInv uuidOf key s) {ops : List PrintsOp}
    (hops : ∀ op ∈ ops, op.Ok)
    (hfits : Machine.Along (PrintsState.step uuidOf key) (fun s op => op.Fits uuidOf s) s ops) :
    ∃ s', Machine.run (PrintsState.step uuidOf key) s ops = some s' ∧
      PrintsInv uuidOf key s' := by
  induction ops generalizing s with
  | nil => exact ⟨s, rfl, h⟩
  | cons op ops ih =>
    obtain ⟨s₁, hs₁, h₁⟩ := h.step hkey (hops op (by simp)) hfits.1
    obtain ⟨s', hs', h'⟩ := ih h₁ (fun op hop => hops op (by simp [hop])) (hfits.2 s₁ hs₁)
    exact ⟨s', by rw [Machine.run_cons, hs₁, Option.bind_some, hs'], h'⟩

/-- Decoding a list of samples each of which decodes. -/
theorem mapM_decodeTemplate {samples : List FeatureSample} {print : FeatureSample → Bytes}
    (h : ∀ sample ∈ samples, decodeTemplate key sample = some (print sample)) :
    samples.mapM (decodeTemplate key) = some (samples.map print) := by
  induction samples with
  | nil => rfl
  | cons sample samples ih =>
    have hrest := ih fun sample' hmem => h sample' (List.mem_cons_of_mem _ hmem)
    rw [List.mapM_cons, h sample List.mem_cons_self, hrest]
    rfl

/-- The prints of one user are read back one per row, in the order of the list. -/
theorem PrintsInv.createPrints {π : Type*} (deserialize : Bytes → π)
    (h : PrintsInv uuidOf key s) (dev : BioDev) {uid : ℤ} (idxStart idxEnd : ℤ) (huid : uid ≠ -1) :
    createPrints deserialize uuidOf key s.db dev uid idxStart idxEnd =
      some ((selectRows s.db (dev.query uid idxStart idxEnd)).map fun r =>
        deserialize (((s.enrolled r.id).map Enrolment.print).getD [])) := by
  set rows := selectRows s.db (dev.query uid idxStart idxEnd) with hrows
  have hmem : ∀ r ∈ rows, r ∈ s.db.rows ∧ r.uid = uid := by
    intro r hr
    obtain ⟨hrow, hsel⟩ := mem_selectRows.mp hr
    exact ⟨hrow, (FeatureQuery.selects_iff.mp hsel).2.1.resolve_left huid⟩
  -- no row of the user is stale
  have hcurrent : currentRows uuidOf s.db (dev.query uid idxStart idxEnd) = rows := by
    refine List.filter_eq_self.mpr fun r hr => ?_
    obtain ⟨hrow, hu⟩ := hmem r hr
    simp [EigenRow.isCurrent, h.uuid r hrow, storedUuid, hu, huid]
  have hread := @bioStoGetFeatureInfo_of_uid uuidOf s.db (dev.query uid idxStart idxEnd) huid
    (fun r hr _ => by rw [(h.ints r hr).columns]; exact h.bioType r hr)
    fun r hr _ => by rw [h.uuid r hr]; exact Option.some_ne_none _
  -- every feature of the list is one that a row opens
  have hlist : listFeatureInfo uuidOf s.db (dev.query uid idxStart idxEnd) =
      some (userFeatures uuidOf s.db (dev.query uid idxStart idxEnd)) := by
    refine listFeatureInfo_eq_some_iff.mpr ⟨hread, ?_⟩
    have hopened : ∀ info ∈ userFeatures uuidOf s.db (dev.query uid idxStart idxEnd),
        info.Printable ∧ info.Fits := by
      intro info hinfo
      obtain ⟨hne, r, hr, heq⟩ := exists_row_of_mem_userFeatures hinfo
      have hrow := (mem_currentRows.mp hr).1
      have hints := h.ints r hrow
      rw [hints.columns] at heq
      rw [heq]
      exact ⟨⟨hints.uid, hints.bioType, hints.eigenIndex, hne⟩, h.fits r hrow⟩
    exact printList_of_fits (fun info hinfo => (hopened info hinfo).1)
      fun info hinfo => (hopened info hinfo).2
  -- a sample decodes to the print that its row is remembered for
  have hdecode : ∀ sample ∈ rows.map EigenRow.toSample, decodeTemplate key sample =
      some (((s.enrolled sample.dbid).map Enrolment.print).getD []) := by
    intro sample hsample
    obtain ⟨r, hr, rfl⟩ := List.mem_map.mp hsample
    have hrow := (hmem r hr).1
    obtain ⟨e, he, hst⟩ := h.stores r hrow
    obtain ⟨bytes, hdec, hlen, hprint⟩ := hst.decodes
    rw [decodeTemplate_of_length hdec (hlen.trans (h.ints r hrow).toSample_no.symm), hprint]
    simp [EigenRow.toSample, he]
  rw [BiometricAuth.createPrints, hlist, Option.bind_some, userFeatures_samples, hcurrent,
    mapM_decodeTemplate hdecode, Option.map_some, List.map_map, List.map_map]
  rfl

end Inv

/-- **Stored templates stay recoverable.** A run of enrolls of prints of at least
two bytes, renames and cleans from the empty database, in which the names and the prints are short
enough, goes through; after it every row decodes to exactly `SampleNo` bytes that decrypt to the
print enrolled into it, and `create_prints` for one user deserializes exactly the prints
enrolled for that user in the index range, one per row, in store order. -/
theorem prints_runs {π : Type*} (deserialize : Bytes → π) (uuidOf : ℤ → String) (key : Bytes)
    (hkey : 16 ≤ key.length) (ops : List PrintsOp) (hops : ∀ op ∈ ops, op.Ok)
    (hfits : Machine.Along (PrintsState.step uuidOf key) (fun s op => op.Fits uuidOf s)
      PrintsState.init ops) :
    ∃ s, Machine.run (PrintsState.step uuidOf key) PrintsState.init ops = some s ∧
      (∀ r ∈ s.db.rows, ∃ e, s.enrolled r.id = some e ∧ r.Stores key e) ∧
      ∀ dev uid idxStart idxEnd, uid ≠ -1 →
        createPrints deserialize uuidOf key s.db dev uid idxStart idxEnd =
          some ((selectRows s.db (dev.query uid idxStart idxEnd)).map fun r =>
            deserialize (((s.enrolled r.id).map Enrolment.print).getD [])) := by
  obtain ⟨s, hrun, h⟩ := (printsInv_init uuidOf key).run hkey hops hfits
  exact ⟨s, hrun, h.stores, fun dev uid idxStart idxEnd huid =>
    h.createPrints deserialize dev idxStart idxEnd huid⟩

/-- `DEFAULT_AES_KEY`. -/
def defaultAesKey : Bytes :=
  "This is UKUI default AES key.".toList.map fun c => c.toNat.toUInt8

/-- A fingerprint reader. -/
def uru4000Reader : BioDev :=
  ⟨0, "uru4000", true, 1, .fingerPrint, .eigenvalue, .usb, [], 0, 0, 0⟩

/-- A run with two enrolls, a rename, and a clean that takes the first row away. -/
def printsRun : List PrintsOp :=
  [.enroll uru4000Reader 7 (-1) "a" [70, 80, 51] [],
   .enroll uru4000Reader 7 1 "b" [70, 80, 52, 1, 2] [],
   .rename uru4000Reader 7 1 "c" [], .clean uru4000Reader 7 0 0 []]

/-- `prints_runs` on that run, under the default key. -/
theorem prints_runs_default : ∃ s,
    Machine.run (PrintsState.step (fun _ => "u") defaultAesKey) PrintsState.init printsRun =
      some s ∧
    ∀ r ∈ s.db.rows, ∃ e, s.enrolled r.id = some e ∧ r.Stores defaultAesKey e := by
  -- every step of the run is one that the invariant is kept by
  have hops : ∀ op ∈ printsRun, op.Ok := by
    simp only [printsRun, List.forall_mem_cons, PrintsOp.Ok]
    exact ⟨by decide, by decide, trivial, trivial, by simp⟩
  -- the first enroll takes index 0
  have hfirst : ∀ i, enrollIndex (fun _ => "u") PrintsState.init.db uru4000Reader 7 (-1) = some i →
      FitsLine "uru4000" i "a" := by
    intro i hi
    obtain rfl : 0 = i := Option.some.inj hi
    decide
  -- the second asks for index 1
  have hsecond : ∀ (s : PrintsState) (i : ℤ),
      enrollIndex (fun _ => "u") s.db uru4000Reader 7 1 = some i → FitsLine "uru4000" i "b" := by
    intro s i hi
    obtain rfl : 1 = i := Option.some.inj hi
    decide
  -- the three names fit on a line each
  obtain ⟨s, hrun, hrows, -⟩ := prints_runs id (fun _ => "u") defaultAesKey (by decide) printsRun
    hops ⟨⟨by decide, fun _ => by decide, hfirst⟩, fun s₁ _ =>
      ⟨⟨by decide, fun h => absurd h (by decide), hsecond s₁⟩, fun _ _ =>
        ⟨fun _ => by decide, fun _ _ => ⟨trivial, fun _ _ => trivial⟩⟩⟩⟩
  exact ⟨s, hrun, hrows⟩

/-- The enroll of a finger whose name is 1015 letters long overruns the stack before the print is
stored. -/
theorem not_prints_runs :
    ¬ ∀ (uuidOf : ℤ → String) (key : Bytes) (ops : List PrintsOp), 16 ≤ key.length →
      (∀ op ∈ ops, op.Ok) →
      ∃ s, Machine.run (PrintsState.step uuidOf key) PrintsState.init ops = some s ∧
        ∀ r ∈ s.db.rows, ∃ e, s.enrolled r.id = some e ∧ r.Stores key e := by
  intro hall
  obtain ⟨name, hname⟩ : ∃ name, name = String.ofList (List.replicate 1015 'a') := ⟨_, rfl⟩
  have hlen : (encodeUtf8 name.toList).length = 1015 := hname ▸ encodeUtf8_letters_length 1015
  obtain ⟨s, hrun, -⟩ := hall (fun _ => "u") defaultAesKey
    [.enroll uru4000Reader 1000 0 name [70, 80, 51] []] (by decide)
    (List.forall_mem_singleton.mpr ⟨by decide, by decide, by decide⟩)
  obtain ⟨s', hstep, -⟩ := Option.bind_eq_some_iff.mp hrun
  obtain ⟨⟨ret, c⟩, hstore, -⟩ := Option.bind_eq_some_iff.mp hstep
  obtain ⟨text, -, hstore⟩ := Option.bind_eq_some_iff.mp hstore
  obtain ⟨⟨⟩, hprinted, -⟩ := Option.bind_eq_some_iff.mp hstore
  -- the line of the feature takes more than the 1024 bytes of its column
  have hline : FitsLine "uru4000" 0 name :=
    (printList_singleton_iff (templateFeature_printable (by decide) (by decide) name _ text)
      (show (0 : ℤ) ≠ -1 by decide)).mp hprinted
  have hcolumn := hline.indexName
  rw [hlen] at hcolumn
  exact absurd hcolumn (by decide)

end BiometricAuth
