import BiometricAuth.Daemon.Sequential
import BiometricAuth.Daemon.VerifyNothing
import BiometricAuth.Driver.StopResult

/-!
# Enrolled features that can be seen

An Enroll stores the index it is asked for as it is, unless that is `-1`, which asks for a free one.
The requests that find the feature again each read an index in their own way: Verify asks for the
features from its index to the same index, GetFeatureList and Clean are asked for those from `0` to
`-1`, which stands for no bound. So a feature with an index below `-1` can be verified with, and is
neither listed nor cleaned. And GetFeatureList prints the list, which crashes on a name that is too
long.

Main result: `visible_iff`, about every database and every Enroll that inserts a row.
-/

namespace BiometricAuth

open Process World

section Visibility

variable {π : Type} {fp : Libfprint π} {w w' : World π} {es es' : List (List (Event π))}

/-! ### The requests that find a feature -/

/-- The feature from which `community_ops_verify` takes its template. -/
def verifyFeature (w : World π) (uid idx : ℤ) : Option FeatureInfo :=
  (listFeatureInfo w.uuidOf w.store.db (w.dev.query uid idx idx)).bind List.head?

/-- The feature of `row` is seen: on the device in the state `w`, once it is open,
GetFeatureList(uid, 0, -1) lists it with its index, Clean(uid, 0, -1) removes the row, and Verify
with its index selects it. -/
structure Visible (fp : Libfprint π) (w : World π) (uid : ℤ) (row : EigenRow) : Prop where
  listed : ∀ es w₀ es₀, communityOpsOpen fp w es = .ret 0 w₀ es₀ →
    ∃ flist w₁, communityOpsGetFeatureList uid 0 (-1) w₀ es₀ = .ret flist w₁ es₀ ∧
      (∃ info ∈ flist, info.index = row.eigenIndex ∧ row.toSample ∈ info.samples) ∧
      ∀ w' es', ClosesInTime fp w₁ es₀ w' es' →
        (Request.getFeatureList uid 0 (-1)).serve fp .admitted w es =
          .ret [.flist flist.length flist] w' es'
  cleaned : ∀ es w₀ es₀, communityOpsOpen fp w es = .ret 0 w₀ es₀ →
    ∃ ret w₁, communityOpsClean uid 0 (-1) w₀ es₀ = .ret ret w₁ es₀ ∧
      (ret = 0 → row ∉ w₁.store.db.rows) ∧
      ∀ w' es', ClosesInTime fp w₁ es₀ w' es' → w'.store = w₁.store ∧
        (Request.clean uid 0 (-1)).serve fp .admitted w es =
          .ret [.code (if ret = 0 then -retOpsSuccess else -retOpsError)] w' es'
  verified : ∀ es w₀ es₀, communityOpsOpen fp w es = .ret 0 w₀ es₀ →
    ∃ info, verifyFeature w₀ uid row.eigenIndex = some info ∧ info.index = row.eigenIndex ∧
      row.toSample ∈ info.samples

/-- The row is one of the user's, with his current UUID, on the device. -/
structure RowOf (w : World π) (uid : ℤ) (row : EigenRow) : Prop where
  mem : row ∈ w.store.db.rows
  user : row.uid = uid
  uuid : row.uuid = some (w.uuidOf uid)
  bioType : row.bioType = w.dev.biotype.code
  driver : row.driver = w.dev.deviceName

/-- No row of the user's on the device with an index from `0` on lacks a UUID. -/
def HasUuids (w : World π) (uid : ℤ) : Prop :=
  ∀ r ∈ w.store.db.rows, (w.dev.query uid 0 (-1)).selects r = true → r.uuid ≠ none

/-- `print_feature_info` takes the list of the user's features from index `0` on. -/
def NamesFit (w : World π) (uid : ℤ) : Prop :=
  AllFit none (userFeatures w.uuidOf w.store.db (w.dev.query uid 0 (-1)))

theorem SameConfig.query (h : SameConfig w w') (uid idxStart idxEnd : ℤ) :
    w'.dev.query uid idxStart idxEnd = w.dev.query uid idxStart idxEnd := by
  unfold BioDev.query
  rw [h.biotype, h.deviceName]

section Row

variable {uid : ℤ} {row : EigenRow}

theorem RowOf.congr (h : RowOf w uid row) (hconfig : SameConfig w w')
    (hstore : w'.store = w.store) : RowOf w' uid row where
  mem := by rw [hstore]; exact h.mem
  user := h.user
  uuid := by rw [hconfig.uuidOf]; exact h.uuid
  bioType := by rw [hconfig.biotype]; exact h.bioType
  driver := by rw [hconfig.deviceName]; exact h.driver

theorem HasUuids.congr (h : HasUuids w uid) (hconfig : SameConfig w w')
    (hstore : w'.store = w.store) : HasUuids w' uid := by
  intro r hr hselects
  rw [hconfig.query] at hselects
  rw [hstore] at hr
  exact h r hr hselects

theorem NamesFit.congr (h : NamesFit w uid) (hconfig : SameConfig w w')
    (hstore : w'.store = w.store) : NamesFit w' uid := by
  unfold NamesFit
  rwa [hconfig.query, hconfig.uuidOf, hstore]

/-- The row is selected by the queries whose range its index is in. -/
theorem RowOf.selects_iff (h : RowOf w uid row) (idxStart idxEnd : ℤ) :
    (w.dev.query uid idxStart idxEnd).selects row = true ↔
      InIndexRange idxStart idxEnd row.eigenIndex := by
  rw [FeatureQuery.selects_iff]
  constructor
  · rintro ⟨hstart, -, -, -, hend⟩
    exact ⟨hstart, hend⟩
  · rintro ⟨hstart, hend⟩
    exact ⟨hstart, .inr h.user, .inr h.bioType,
      fun d hd => h.driver.trans (Option.some.inj hd), hend⟩

theorem RowOf.mem_currentRows (h : RowOf w uid row) {idxStart idxEnd : ℤ}
    (hrange : InIndexRange idxStart idxEnd row.eigenIndex) :
    row ∈ currentRows w.uuidOf w.store.db (w.dev.query uid idxStart idxEnd) := by
  refine BiometricAuth.mem_currentRows.mpr
    ⟨h.mem, (h.selects_iff _ _).mpr hrange, decide_eq_true ?_⟩
  rw [h.user]
  exact h.uuid

/-! ### What the queries give -/

/-- The features of a user can be printed, but for the length of their names. -/
theorem printable_of_mem_userFeatures (hint : IsCInt uid) (huid : uid ≠ -1) {idxStart idxEnd : ℤ}
    (hend : IsCInt idxEnd) (hstart : IsCInt idxStart) {info : FeatureInfo}
    (h : info ∈ userFeatures w.uuidOf w.store.db (w.dev.query uid idxStart idxEnd)) :
    info.Printable ∧ info.driver = w.dev.deviceName := by
  obtain ⟨hsamples, r, hr, hheader⟩ := exists_row_of_mem_userFeatures h
  obtain ⟨hruid, hrbio, hrdriver⟩ := sameFeature_columns w.store.db idxStart idxEnd huid _
    (List.mem_map_of_mem hr)
  have hindex : IsCInt ((w.dev.query uid idxStart idxEnd).columns r).eigenIndex := by
    rw [FeatureQuery.columns_eq_columnInt ⟨hint, w.dev.biotype.isCInt_code, hstart, hend⟩
      (mem_currentRows.mp hr).2.1]
    exact isCInt_columnInt _
  have huser : IsCInt ((w.dev.query uid idxStart idxEnd).columns r).uid := by rwa [hruid]
  have hbio : IsCInt ((w.dev.query uid idxStart idxEnd).columns r).bioType := by
    rw [hrbio]
    exact w.dev.biotype.isCInt_code
  rw [hheader]
  exact ⟨⟨huser, hbio, hindex, hsamples⟩, hrdriver⟩

/-- An index that is an `int` is read as it is, and so are those before it from `0` on. -/
theorem columns_eigenIndex_of_le {r : EigenRow} {bound : ℤ} (hbound : IsCInt bound)
    (hr : r ∈ currentRows w.uuidOf w.store.db (w.dev.query uid 0 (-1)))
    (hle : r.eigenIndex ≤ bound) :
    ((w.dev.query uid 0 (-1)).columns r).eigenIndex = r.eigenIndex := by
  have hpos : 0 ≤ r.eigenIndex := (FeatureQuery.selects_iff.mp (mem_currentRows.mp hr).2.1).1
  rw [FeatureQuery.columns_eigenIndex_unbounded rfl]
  exact columnInt_of_isCInt ⟨by omega, hle.trans_lt hbound.2⟩

/-- The rows with one index are among those from `0` on. -/
theorem currentRows_index {idx : ℤ} (hle : 0 ≤ idx) :
    currentRows w.uuidOf w.store.db (w.dev.query uid idx idx) =
      (currentRows w.uuidOf w.store.db (w.dev.query uid 0 (-1))).filter
        fun r => r.eigenIndex = idx := by
  have hselects : ∀ r : EigenRow, (w.dev.query uid idx idx).selects r =
      (decide (r.eigenIndex = idx) && (w.dev.query uid 0 (-1)).selects r) := by
    intro r
    rw [Bool.eq_iff_iff, Bool.and_eq_true, decide_eq_true_eq, FeatureQuery.selects_iff,
      FeatureQuery.selects_iff]
    simp only [BioDev.query, true_or, and_true]
    constructor
    · rintro ⟨hstart, huser, hbio, hdriver, hend⟩
      have hidx : r.eigenIndex = idx := le_antisymm (hend.resolve_left (by omega)) hstart
      exact ⟨hidx, by omega, huser, hbio, hdriver⟩
    · rintro ⟨hidx, -, huser, hbio, hdriver⟩
      exact ⟨hidx.ge, huser, hbio, hdriver, .inr hidx.le⟩
  simp only [currentRows, selectRows, Grouping.filter_insertionSort, List.filter_filter, hselects]
  congr 2
  funext r
  cases r.isCurrent w.uuidOf <;> simp

/-- The list from `0` on has the feature of the row. -/
theorem exists_listed (h : RowOf w uid row) (huid : 0 ≤ uid) (hindex : IsCInt row.eigenIndex)
    (hle : 0 ≤ row.eigenIndex) :
    ∃ info ∈ userFeatures w.uuidOf w.store.db (w.dev.query uid 0 (-1)),
      info.index = row.eigenIndex ∧ row.toSample ∈ info.samples ∧
      ((currentRows w.uuidOf w.store.db (w.dev.query uid 0 (-1))).find? fun r =>
        r.eigenIndex = row.eigenIndex).map EigenRow.eigenIndexName = some info.indexName :=
  SameFeature.exists_feature (currentRows_eigenIndex_sorted w.store.db 0 (-1) (by omega))
    (sameFeature_columns w.store.db 0 (-1) (by omega)) (h.mem_currentRows ⟨hle, .inl rfl⟩)
    fun _ hr' hle' => columns_eigenIndex_of_le hindex hr' hle'

/-- The list from `0` on is returned with the feature of the row. -/
theorem listed_iff (h : RowOf w uid row) (huid : 0 ≤ uid) (hint : IsCInt uid)
    (hindex : IsCInt row.eigenIndex) :
    (∃ flist, listFeatureInfo w.uuidOf w.store.db (w.dev.query uid 0 (-1)) = some flist ∧
        ∃ info ∈ flist, info.index = row.eigenIndex ∧ row.toSample ∈ info.samples) ↔
      0 ≤ row.eigenIndex ∧ HasUuids w uid ∧ NamesFit w uid := by
  have hread : ∀ flist, bioStoGetFeatureInfo w.uuidOf w.store.db (w.dev.query uid 0 (-1)) =
      some flist ↔ flist = userFeatures w.uuidOf w.store.db (w.dev.query uid 0 (-1)) ∧
        HasUuids w uid :=
    fun flist => bioStoGetFeatureInfo_eq_some_iff w.uuidOf (show uid ≠ -1 by omega)
      w.dev.biotype.code_nonneg
  have hprint : printList (userFeatures w.uuidOf w.store.db (w.dev.query uid 0 (-1))) = some () ↔
      NamesFit w uid :=
    printList_iff_allFit fun info hinfo =>
      (printable_of_mem_userFeatures hint (by omega) (by decide) (by decide) hinfo).1
  simp only [listFeatureInfo_eq_some_iff, hread]
  constructor
  · rintro ⟨flist, ⟨⟨rfl, huuid⟩, hprinted⟩, info, hinfo, -, hsample⟩
    refine ⟨?_, huuid, hprint.mp hprinted⟩
    -- the sample is the row's own
    have hmem := List.mem_flatMap.mpr ⟨info, hinfo, hsample⟩
    rw [userFeatures_samples] at hmem
    obtain ⟨r, hr, hsame⟩ := List.mem_map.mp hmem
    obtain ⟨hrow, hselects, -⟩ := mem_currentRows.mp hr
    have hid : r.id = row.id := congrArg FeatureSample.dbid hsame
    obtain rfl : r = row := List.inj_on_of_nodup_map w.store.db.ids_nodup hrow h.mem hid
    exact (FeatureQuery.selects_iff.mp hselects).1
  · rintro ⟨hle, huuid, hnames⟩
    obtain ⟨info, hinfo, hinfoIndex, hsample, -⟩ := exists_listed h huid hindex hle
    exact ⟨_, ⟨⟨rfl, huuid⟩, hprint.mpr hnames⟩, info, hinfo, hinfoIndex, hsample⟩

/-- A clean from `0` on deletes the row. -/
theorem RowOf.deletes (h : RowOf w uid row) (hle : 0 ≤ row.eigenIndex) :
    (w.dev.query uid 0 (-1)).deletes row = true := by
  rw [FeatureQuery.deletes, FeatureQuery.selects_iff]
  refine ⟨hle, .inr h.user, .inr h.bioType, fun d hd => ?_, .inl rfl⟩
  have hd : (some w.dev.deviceName).filter (fun d => d ≠ "") = some d := hd
  exact h.driver.trans (Option.some.inj (Option.filter_eq_some_iff.mp hd).1)

/-- Verify with the index of the row reads one feature, and the row's sample is in it. -/
theorem RowOf.verifyFeature (h : RowOf w uid row) (huid : 0 ≤ uid) (hint : IsCInt uid)
    (hindex : IsCInt row.eigenIndex) (hle : 0 ≤ row.eigenIndex) (huuid : HasUuids w uid)
    (hnames : NamesFit w uid) :
    ∃ info, verifyFeature w uid row.eigenIndex = some info ∧ info.index = row.eigenIndex ∧
      row.toSample ∈ info.samples := by
  have hne : uid ≠ -1 := by omega
  -- the list of the index is read, as the rows of the user have UUIDs
  have hread : bioStoGetFeatureInfo w.uuidOf w.store.db
      (w.dev.query uid row.eigenIndex row.eigenIndex) =
        some (userFeatures w.uuidOf w.store.db
          (w.dev.query uid row.eigenIndex row.eigenIndex)) := by
    refine (bioStoGetFeatureInfo_eq_some_iff w.uuidOf hne w.dev.biotype.code_nonneg).mpr
      ⟨rfl, fun r hr hselects => ?_⟩
    obtain ⟨hstart, hruid, hbio, hdriver, -⟩ := FeatureQuery.selects_iff.mp hselects
    exact huuid r hr (FeatureQuery.selects_iff.mpr
      ⟨hle.trans hstart, hruid, hbio, hdriver, .inl rfl⟩)
  have hsame : SameFeature _ uid w.dev.biotype.code w.dev.deviceName :=
    @sameFeature_columns w.uuidOf w.dev uid w.store.db row.eigenIndex row.eigenIndex hne
  -- the feature of the row
  obtain ⟨info, hinfo, hinfoIndex, hsample, hname⟩ := SameFeature.exists_feature
    (currentRows_eigenIndex_sorted w.store.db row.eigenIndex row.eigenIndex hne) hsame
    (h.mem_currentRows ⟨le_refl _, .inr (le_refl _)⟩)
    fun r' hr' _ => FeatureQuery.columns_eigenIndex (show row.eigenIndex ≠ -1 by omega)
  change info ∈ userFeatures w.uuidOf w.store.db
    (w.dev.query uid row.eigenIndex row.eigenIndex) at hinfo
  have hsingle : userFeatures w.uuidOf w.store.db
      (w.dev.query uid row.eigenIndex row.eigenIndex) = [info] := by
    have hall : ∀ info ∈ userFeatures w.uuidOf w.store.db
        (w.dev.query uid row.eigenIndex row.eigenIndex), info.index = row.eigenIndex := by
      intro info hinfo
      obtain ⟨-, r, hr, hheader⟩ := exists_row_of_mem_userFeatures hinfo
      rw [currentRows_index hle] at hr
      rw [hheader]
      exact (FeatureQuery.columns_eigenIndex (show row.eigenIndex ≠ -1 by omega)).trans
        (of_decide_eq_true (List.mem_filter.mp hr).2)
    -- the indices increase, so that there is no other
    have hpair : (userFeatures w.uuidOf w.store.db
        (w.dev.query uid row.eigenIndex row.eigenIndex)).Pairwise fun f g => f.index < g.index :=
      hsame.pairwise_index
    generalize userFeatures w.uuidOf w.store.db
      (w.dev.query uid row.eigenIndex row.eigenIndex) = infos at hall hpair hinfo
    cases hpair with
    | nil => cases hinfo
    | @cons first rest hfirst _ =>
      cases rest with
      | nil => rw [List.mem_singleton.mp hinfo]
      | cons next rest =>
        have hlt := hfirst next (by simp)
        rw [hall first (by simp), hall next (by simp)] at hlt
        exact absurd hlt (lt_irrefl _)
  -- it has the name that it has in the list from `0` on, which fits
  obtain ⟨hprintable, hdriver⟩ :=
    printable_of_mem_userFeatures hint hne hindex hindex hinfo
  have hfits : info.Fits := by
    obtain ⟨info₀, hinfo₀, hindex₀, -, hname₀⟩ := exists_listed h huid hindex hle
    have hfirst : info.indexName = info₀.indexName := by
      rw [currentRows_index hle, List.find?_filter] at hname
      simp only [decide_eq_true_eq, and_self] at hname
      exact Option.some.inj (hname.symm.trans hname₀)
    have hfits₀ : info₀.Fits := hnames.fits
      (fun f hf => (printable_of_mem_userFeatures hint hne (by decide) (by decide) hf).2)
      (sameFeature_columns w.store.db 0 (-1) hne).pairwise_index (by simp) hinfo₀
      (by rw [hindex₀]; omega)
    have hdriver₀ := (printable_of_mem_userFeatures hint hne (by decide) (by decide) hinfo₀).2
    unfold FeatureInfo.Fits at hfits₀ ⊢
    rwa [hdriver, hinfoIndex, hfirst, ← hdriver₀, ← hindex₀]
  -- so the list of the one feature can be printed
  have hprint : printList [info] = some () := printList_of_fits
    (List.forall_mem_singleton.mpr hprintable) (List.forall_mem_singleton.mpr hfits)
  refine ⟨info, ?_, hinfoIndex, hsample⟩
  rw [BiometricAuth.verifyFeature,
    listFeatureInfo_eq_some_iff.mpr ⟨hread.trans (congrArg some hsingle), hprint⟩]
  rfl

/-! ### The requests -/

/-- Close leaves the table alone. -/
theorem ClosesInTime.store (h : ClosesInTime fp w es w' es') : w'.store = w.store := by
  obtain ⟨w₁, hpoll, rfl⟩ := h
  exact (poll_openPoller_inv (.inr rfl) hpoll).store

/-- What `community_ops_get_feature_list` returns has been read from the table and printed. -/
theorem read_of_communityOpsGetFeatureList {idxStart idxEnd : ℤ} {flist : List FeatureInfo}
    (henable : Enabled w)
    (h : communityOpsGetFeatureList uid idxStart idxEnd w es = .ret flist w' es') :
    listFeatureInfo w.uuidOf w.store.db (w.dev.query uid idxStart idxEnd) = some flist := by
  have henable : w.dev.enable = true := henable
  simp only [communityOpsGetFeatureList, Proc.get_bind, henable, Bool.true_eq_false, if_false,
    Proc.modify_bind] at h
  obtain ⟨found, w₂, es₂, hfound, hret⟩ := Proc.bind_eq_ret.mp h
  obtain ⟨hfound, -, -⟩ := Proc.ofOption_eq_ret.mp hfound
  obtain ⟨rfl, -, -⟩ := Proc.pure_eq_ret.mp hret
  exact hfound

/-- If the list can be read and printed, `community_ops_get_feature_list` returns it. -/
theorem communityOpsGetFeatureList_of_read {idxStart idxEnd : ℤ} {flist : List FeatureInfo}
    (henable : Enabled w)
    (h : listFeatureInfo w.uuidOf w.store.db (w.dev.query uid idxStart idxEnd) = some flist)
    (es : List (List (Event π))) :
    ∃ w₁, communityOpsGetFeatureList uid idxStart idxEnd w es = .ret flist w₁ es ∧ Enabled w₁ ∧
      w₁.dev.opsResult = opsGetFlistSuccess := by
  have henabled : w.dev.enable = true := henable
  simp only [communityOpsGetFeatureList, Proc.get_bind, henabled, Bool.true_eq_false, if_false,
    Proc.modify_bind]
  refine ⟨_, Proc.bind_eq_ret.mpr ⟨flist, _, es, Proc.ofOption_eq_ret.mpr ⟨h, rfl, rfl⟩, rfl⟩, ?_⟩
  exact ⟨henable, rfl⟩

/-- GetFeatureList, once the list is made. -/
theorem serve_getFeatureList {w₀ w₁ : World π} {es₀ es₁ : List (List (Event π))}
    {idxStart idxEnd : ℤ} {flist : List FeatureInfo}
    (hopen : communityOpsOpen fp w es = .ret 0 w₀ es₀)
    (hop : communityOpsGetFeatureList uid idxStart idxEnd w₀ es₀ = .ret flist w₁ es₁)
    (henable₁ : Enabled w₁) (hresult : w₁.dev.opsResult = opsGetFlistSuccess)
    (hclose : ClosesInTime fp w₁ es₁ w' es') :
    (Request.getFeatureList uid idxStart idxEnd).serve fp .admitted w es =
      .ret [.flist flist.length flist] w' es' := by
  refine serve_admitted_eq_ret.mpr ⟨.flist flist, Proc.map_eq_ret.mpr ⟨flist, ?_, rfl⟩, ?_⟩
  · exact bioOps_of_closesInTime hopen hop henable₁ hclose
  · exact (if_pos (hclose.opsResult.trans hresult)).symm

/-- Clean, once the rows are deleted. -/
theorem serve_clean {w₀ w₁ : World π} {es₀ es₁ : List (List (Event π))} {idxStart idxEnd ret : ℤ}
    (hopen : communityOpsOpen fp w es = .ret 0 w₀ es₀)
    (hop : communityOpsClean uid idxStart idxEnd w₀ es₀ = .ret ret w₁ es₁)
    (hclose : ClosesInTime fp w₁ es₁ w' es') :
    (Request.clean uid idxStart idxEnd).serve fp .admitted w es =
      .ret [.code (if ret = 0 then -retOpsSuccess else -retOpsError)] w' es' := by
  obtain ⟨-, henable₀, -⟩ := opened_of_ret_zero hopen
  obtain ⟨hconfig, hret⟩ := communityOpsClean_spec henable₀ hop
  have henable₁ : Enabled w₁ := hconfig.enable.trans henable₀
  refine serve_admitted_eq_ret.mpr ⟨.ret ret, Proc.map_eq_ret.mpr ⟨ret, ?_, rfl⟩, ?_⟩
  · exact bioOps_of_closesInTime hopen hop henable₁ hclose
  · show _ = [Reply.code (Request.commonCode w'.dev.opsResult)]
    rw [hclose.opsResult]
    rcases hret with ⟨rfl, -, hresult⟩ | ⟨rfl, -, hresult⟩
    · rw [hresult]
      rfl
    · rw [hresult]
      rfl

/-- A clean returns. -/
theorem communityOpsClean_returns_ret (henable : Enabled w) (idxStart idxEnd : ℤ)
    (es : List (List (Event π))) :
    ∃ ret w₁, communityOpsClean uid idxStart idxEnd w es = .ret ret w₁ es := by
  have henable : w.dev.enable = true := henable
  simp only [communityOpsClean, Proc.get_bind, henable, Bool.true_eq_false, if_false,
    Proc.modify_bind]
  split <;> exact ⟨_, _, rfl⟩

/-- The feature is seen exactly if its index is not negative, its user's rows have UUIDs, and the
names of his features fit. -/
theorem visible_iff_index (h : RowOf w uid row) (huid : 0 ≤ uid) (hint : IsCInt uid)
    (hindex : IsCInt row.eigenIndex) (henable : Enabled w) :
    Visible fp w uid row ↔ 0 ≤ row.eigenIndex ∧ HasUuids w uid ∧ NamesFit w uid := by
  constructor
  · intro hvisible
    -- the device can be opened
    have hopen : communityOpsOpen fp w [[.deviceOpened true]] = .ret 0 w.opened [] :=
      communityOpsOpen_opened henable []
    obtain ⟨hconfig, hstore, -⟩ := communityOpsOpen_spec henable hopen
    obtain ⟨flist, w₁, hop, hinfo, -⟩ := hvisible.listed _ _ _ hopen
    have hread := read_of_communityOpsGetFeatureList (hconfig.enable.trans henable) hop
    rw [hconfig.uuidOf, hstore, hconfig.query] at hread
    exact (listed_iff h huid hint hindex).mp ⟨flist, hread, hinfo⟩
  · -- the world after the open has the same store, and each of the three operations finds the row
    -- there
    rintro ⟨hle, huuid, hnames⟩
    refine ⟨fun es w₀ es₀ hopen => ?_, fun es w₀ es₀ hopen => ?_, fun es w₀ es₀ hopen => ?_⟩
    all_goals
      obtain ⟨-, henable₀, -⟩ := opened_of_ret_zero hopen
      obtain ⟨hconfig, hstore, -⟩ := communityOpsOpen_spec henable hopen
      have h₀ : RowOf w₀ uid row := h.congr hconfig hstore
      have huuid₀ : HasUuids w₀ uid := huuid.congr hconfig hstore
      have hnames₀ : NamesFit w₀ uid := hnames.congr hconfig hstore
    · -- the feature list has the feature, and the reply hands it on
      obtain ⟨flist, hflist, hinfo⟩ :=
        (listed_iff h₀ huid hint hindex).mpr ⟨hle, huuid₀, hnames₀⟩
      obtain ⟨w₁, hop, henable₁, hresult⟩ := communityOpsGetFeatureList_of_read henable₀ hflist es₀
      exact ⟨flist, w₁, hop, hinfo, fun w' es' => serve_getFeatureList hopen hop henable₁ hresult⟩
    · -- the clean deletes the row, or it reports the failure
      obtain ⟨ret, w₁, hop⟩ := communityOpsClean_returns_ret henable₀ 0 (-1) es₀
      refine ⟨ret, w₁, hop, fun hret hmem => ?_, fun w' es' hclose =>
        ⟨hclose.store, serve_clean hopen hop hclose⟩⟩
      rcases (communityOpsClean_spec henable₀ hop).2 with ⟨-, hdb, -⟩ | ⟨hfail, -, -⟩
      · rw [hdb] at hmem
        have hkept := (List.mem_filter.mp hmem).2
        rw [h₀.deletes hle] at hkept
        cases hkept
      · rw [hfail] at hret
        cases hret
    · -- verify reads the feature of the row
      exact h₀.verifyFeature huid hint hindex hle huuid₀ hnames₀

end Row

/-! ### Enroll -/

/-- The search for a free index ends on an index from `0` on: if an index is in use from there, one
of them is read as `-1` or more. -/
def LeavesIndex (uuidOf : ℤ → String) (db : EigenInfo) (dev : BioDev) (uid : ℤ) : Prop :=
  ∀ i, 0 ≤ i → UsedIndex uuidOf db dev uid i →
    ∃ j, 0 ≤ j ∧ UsedIndex uuidOf db dev uid j ∧ -1 ≤ columnInt j

/-- The index that the search returns goes by the last feature of the list, which has the largest
index that is read. -/
theorem emptyIndex_nonneg_iff {uuidOf : ℤ → String} {db : EigenInfo} {dev : BioDev} {uid i : ℤ}
    (huid : uid ≠ -1) (h : bioCommonGetEmptyIndexInt uuidOf db dev uid 0 (-1) = some i) :
    0 ≤ i ↔ LeavesIndex uuidOf db dev uid := by
  obtain ⟨infos, hread, hinfos⟩ := Option.bind_eq_some_iff.mp h
  obtain ⟨⟨cmp, emptyIndex, cur⟩, hscan, hfree⟩ := Option.bind_eq_some_iff.mp hinfos
  obtain ⟨hempty, habove, hlast⟩ := scanEmptyIndexInt_last (le_refl 0) (le_refl 0) hscan
  obtain ⟨rfl, -⟩ :=
    (bioStoGetFeatureInfo_eq_some_iff uuidOf huid dev.biotype.code_nonneg).mp hread
  have hused : ∀ {i : ℤ}, 0 ≤ i → (UsedIndex uuidOf db dev uid i ↔
      ∃ r ∈ currentRows uuidOf db (dev.query uid 0 (-1)), r.eigenIndex = i) :=
    fun hi => usedIndex_iff_mem huid ⟨hi, .inl rfl⟩
  have hpos : ∀ r ∈ currentRows uuidOf db (dev.query uid 0 (-1)), 0 ≤ r.eigenIndex :=
    fun r hr => (FeatureQuery.selects_iff.mp (mem_currentRows.mp hr).2.1).1
  have hcolumn : ∀ r : EigenRow, ((dev.query uid 0 (-1)).columns r).eigenIndex =
      columnInt r.eigenIndex := fun r => FeatureQuery.columns_eigenIndex_unbounded rfl
  by_cases hcmp : 0 < cmp
  · -- a feature lies above the free index
    obtain rfl : emptyIndex = i := Option.some.inj ((if_pos hcmp).symm.trans hfree)
    refine iff_of_true hempty fun _ _ _ => ?_
    obtain ⟨info, hinfo, hlt⟩ := habove hcmp
    obtain ⟨-, r, hr, hheader⟩ := exists_row_of_mem_userFeatures hinfo
    have hindex : info.index = columnInt r.eigenIndex := by
      rw [hheader]
      exact hcolumn r
    exact ⟨_, hpos r hr, (hused (hpos r hr)).mpr ⟨r, hr, rfl⟩, by omega⟩
  · -- no feature lies above: the index behind the last one
    have hnext : cInt (cur + 1) = some i := (if_neg hcmp).symm.trans hfree
    obtain ⟨rfl, -⟩ := eq_of_cInt hnext
    rw [hlast (not_lt.mp hcmp)]
    change 0 ≤ ((userFeatures uuidOf db (dev.query uid 0 (-1))).getLast?.map
      FeatureInfo.index).getD (-1) + 1 ↔ _
    cases hlastInfo : (userFeatures uuidOf db (dev.query uid 0 (-1))).getLast? with
    | none =>
      -- nothing is in use
      refine iff_of_true (by decide) fun i hi hi' => ?_
      obtain ⟨r, hr, -⟩ := (hused hi).mp hi'
      rw [List.map_eq_nil_iff.mp (eq_nil_of_fileRows_eq_nil hlastInfo)] at hr
      cases hr
    | some last =>
      obtain ⟨⟨r', hr', hlastIndex⟩, hub⟩ :=
        (sameFeature_columns db 0 (-1) huid).isGreatest hlastInfo
      obtain ⟨r, hr, rfl⟩ := List.mem_map.mp hr'
      rw [hcolumn] at hlastIndex
      simp only [Option.map_some, Option.getD_some]
      -- the last index is the largest that is read
      constructor
      · exact fun hle _ _ _ => ⟨_, hpos r hr, (hused (hpos r hr)).mpr ⟨r, hr, rfl⟩, by omega⟩
      · intro hleaves
        obtain ⟨j, hj, hj', hread'⟩ :=
          -- an index that is left behind is one whose successor is read no larger
          hleaves _ (hpos r hr) ((hused (hpos r hr)).mpr ⟨r, hr, rfl⟩)
        obtain ⟨r₂, hr₂, rfl⟩ := (hused hj).mp hj'
        have hmax : ((dev.query uid 0 (-1)).columns r₂).eigenIndex ≤ last.index :=
          hub ⟨_, List.mem_map_of_mem hr₂, rfl⟩
        rw [hcolumn] at hmax
        omega

/-- The index that is stored, after the daemon and the driver have each chosen one: it is the one
asked for, unless that is `-1`. -/
theorem enrollIndex_twice {uuidOf : ℤ → String} {db : EigenInfo} {dev : BioDev}
    {uid idx idx₁ idx₂ : ℤ} (huid : 0 ≤ uid) (hidx : IsCInt idx)
    (h₁ : enrollIndex uuidOf db dev uid idx = some idx₁)
    (h₂ : enrollIndex uuidOf db dev uid idx₁ = some idx₂) :
    IsCInt idx₂ ∧ (0 ≤ idx₂ ↔ -1 ≤ idx ∧ (idx = -1 → LeavesIndex uuidOf db dev uid)) := by
  refine ⟨isCInt_of_enrollIndex (isCInt_of_enrollIndex hidx h₁) h₂, ?_⟩
  by_cases hauto : idx = -1
  · -- a search that ends on `-1` is made again, and ends on it again
    have hsame : idx₂ = idx₁ := by
      by_cases hagain : idx₁ = -1
      · rw [hagain, ← hauto] at h₂
        exact Option.some.inj (h₂.symm.trans h₁)
      · exact enrollIndex_eq h₂ hagain
    rw [enrollIndex, if_pos hauto] at h₁
    rw [hsame, emptyIndex_nonneg_iff (by omega) h₁]
    exact ⟨fun hleaves => ⟨hauto.ge, fun _ => hleaves⟩, fun h => h.2 hauto⟩
  · have hidx₁ := enrollIndex_eq h₁ hauto
    have hidx₂ := enrollIndex_eq h₂ (by omega)
    rw [hidx₂, hidx₁]
    exact ⟨fun hle => ⟨by omega, fun h => absurd h hauto⟩, fun h => by omega⟩

/-- An Enroll that inserts a row. -/
theorem rowOf_of_enroll {uid idx : ℤ} {idxName : String} {admission : Admission}
    {replies : List Reply} {row : EigenRow} (huid : 0 ≤ uid) (hidx : IsCInt idx)
    (h : (Request.enroll uid idx idxName).serve fp admission w es = .ret replies w' es')
    (hrow : w'.store.db.rows = w.store.db.rows ++ [row]) :
    SameConfig w w' ∧ Enabled w' ∧ RowOf w' uid row ∧ IsCInt row.eigenIndex ∧
      (0 ≤ row.eigenIndex ↔
        -1 ≤ idx ∧ (idx = -1 → LeavesIndex w.uuidOf w.store.db w.dev uid)) := by
  -- a row more is a change of the store
  have hchanged : w'.store ≠ w.store := by
    intro hstore
    rw [hstore] at hrow
    simpa using congrArg List.length hrow
  by_cases hadmission : admission = .admitted
  · subst hadmission
    obtain ⟨value, hrun, -⟩ := serve_admitted_eq_ret.mp h
    obtain ⟨idx₁, r, hidx₁, henroll⟩ := run_enroll_eq_ret hrun
    -- a disabled device stores nothing
    cases henable : w.dev.enable with
    | false =>
      simp only [bioOpsEnroll, bioOps, Proc.get_bind, henable, if_true, Proc.modify_bind] at henroll
      cases henroll
      exact absurd rfl hchanged
    | true =>
      have hconfig := bioOpsEnroll_config henable henroll
      obtain ⟨course, c', -, -, -, hprints, hnone⟩ := bioOpsEnroll_course henable henroll
      -- an enroll that has stored a print has chosen an index, and has taken it
      by_cases hcourse : course.Prints
      · obtain ⟨idx₂, hidx₂, hstored⟩ := hprints hcourse
        rcases hstored.db_cases with ⟨-, sampleNo, eigenData, hdb⟩ | ⟨-, hdb⟩
        · have hmem : row ∈ w'.store.db.rows := by
            rw [hrow]
            exact List.mem_append_right _ (List.mem_singleton_self row)
          rw [hdb] at hrow
          obtain rfl := List.singleton_inj.mp (List.append_cancel_left hrow)
          refine ⟨hconfig, hconfig.enable.trans henable, ⟨hmem, rfl, ?_, ?_, ?_⟩,
            enrollIndex_twice huid hidx hidx₁ hidx₂⟩
          · show some (if uid = -1 then "" else w.uuidOf uid) = _
            rw [if_neg (by omega), hconfig.uuidOf]
          · exact (congrArg BioType.code hconfig.biotype).symm
          · exact hconfig.deviceName.symm
        · -- the `INSERT` has failed, and there is no row more
          rw [hdb] at hrow
          simpa using congrArg List.length hrow
      · exact absurd (hnone hcourse) hchanged
  · -- a refused request leaves the world as it is
    obtain ⟨rfl, -⟩ := serve_refused hadmission h
    exact absurd rfl hchanged

/-- **Enrolled features are seen.** After an Enroll that has inserted a row, the feature is listed,
cleaned and selected by Verify exactly if the index asked for is not below `-1`, the search for a
free one, if there is one, ends on an index from `0` on, no row of the user's on the device with an
index from `0` on lacks a UUID, and the names of his features can be printed. -/
theorem visible_iff {uid idx : ℤ} {idxName : String} {admission : Admission}
    {replies : List Reply} {row : EigenRow} (huid : 0 ≤ uid) (hint : IsCInt uid) (hidx : IsCInt idx)
    (h : (Request.enroll uid idx idxName).serve fp admission w es = .ret replies w' es')
    (hrow : w'.store.db.rows = w.store.db.rows ++ [row]) :
    Visible fp w' uid row ↔
      (-1 ≤ idx ∧ (idx = -1 → LeavesIndex w.uuidOf w.store.db w.dev uid)) ∧ HasUuids w uid ∧
        NamesFit w' uid := by
  obtain ⟨hconfig, henable, hof, hindex, hpos⟩ := rowOf_of_enroll huid hidx h hrow
  rw [visible_iff_index hof huid hint hindex henable, hpos]
  refine and_congr_right fun _ => and_congr_left fun _ => ?_
  unfold HasUuids
  rw [hconfig.query, hrow]
  constructor
  · exact fun huuid r hr => huuid r (List.mem_append_left _ hr)
  · intro huuid r hr hselects
    rcases List.mem_append.mp hr with hr | hr
    · exact huuid r hr hselects
    · -- the new row has the user's UUID
      rw [List.mem_singleton.mp hr, hof.uuid]
      exact Option.some_ne_none _

end Visibility

/-! ### Two indices -/

/-- libfprint answers each call at once and enrolls a print. -/
def enrollSchedule : List (List (Event Bytes)) :=
  [[.deviceOpened true], [.enrollCompleted (.print [1, 2, 3])], [.deviceClosed]]

/-- Enroll of user 1000 on an empty table, with the index that is then in the table. -/
theorem exists_enroll (idx index : ℤ)
    (hrun : (((Request.enroll 1000 idx "a").serve bytesLibfprint .admitted idleWorld
      enrollSchedule).result.map fun p => p.2.store.db.rows.map EigenRow.eigenIndex) =
        some [index]) :
    ∃ replies w' es' row, (Request.enroll 1000 idx "a").serve bytesLibfprint .admitted idleWorld
        enrollSchedule = .ret replies w' es' ∧
      w'.store.db.rows = idleWorld.store.db.rows ++ [row] ∧ row.eigenIndex = index := by
  obtain ⟨⟨replies, w'⟩, hresult, hrows⟩ := Option.map_eq_some_iff.mp hrun
  obtain ⟨es', hserve⟩ := Outcome.result_eq_some.mp hresult
  obtain ⟨row, hrow, hindex⟩ := List.map_eq_singleton_iff.mp hrows
  exact ⟨replies, w', es', row, hserve, hrow, hindex⟩

/-- An automatic index. -/
theorem visible_automatic : ∃ replies w' es' row,
    (Request.enroll 1000 (-1) "a").serve bytesLibfprint .admitted idleWorld enrollSchedule =
      .ret replies w' es' ∧ row ∈ w'.store.db.rows ∧ Visible bytesLibfprint w' 1000 row := by
  obtain ⟨replies, w', es', row, hserve, hrow, -⟩ :=
    exists_enroll (-1) 0 (by decide +kernel)
  -- the only feature has a short name
  have hlist : (((Request.enroll 1000 (-1) "a").serve bytesLibfprint .admitted idleWorld
      enrollSchedule).result.map fun p => (userFeatures p.2.uuidOf p.2.store.db
        (p.2.dev.query 1000 0 (-1))).all fun info => decide info.Fits) = some true := by
    decide +kernel
  rw [hserve] at hlist
  refine ⟨replies, w', es', row, hserve, ?_, ?_⟩
  · rw [hrow]
    exact List.mem_append_right _ (List.mem_singleton_self row)
  · refine (visible_iff (by decide) (by decide) (by decide) hserve hrow).mpr
      ⟨⟨by decide, fun _ i _ hused => ?_⟩, fun r hr => ?_, ?_⟩
    · obtain ⟨r, hr, -⟩ := hused
      cases hr
    · cases hr
    · exact allFit_of_fits fun info hinfo =>
        of_decide_eq_true (List.all_eq_true.mp (Option.some.inj hlist) info hinfo)

/-- A feature with the index `-2` can be verified with, and is not seen. -/
theorem not_visible : ∃ replies w' es' row,
    (Request.enroll 1000 (-2) "a").serve bytesLibfprint .admitted idleWorld enrollSchedule =
      .ret replies w' es' ∧ w'.store.db.rows = idleWorld.store.db.rows ++ [row] ∧
      (∃ data, verifyTemplate w' 1000 row.eigenIndex = some data) ∧
      ¬ Visible bytesLibfprint w' 1000 row := by
  obtain ⟨replies, w', es', row, hserve, hrow, hindex⟩ :=
    exists_enroll (-2) (-2) (by decide +kernel)
  refine ⟨replies, w', es', row, hserve, hrow, ?_, fun hvisible => ?_⟩
  · have hverify : (((Request.enroll 1000 (-2) "a").serve bytesLibfprint .admitted idleWorld
        enrollSchedule).result.map fun p => (verifyTemplate p.2 1000 (-2)).isSome) =
          some true := by
      decide +kernel
    rw [hserve] at hverify
    rw [hindex]
    exact Option.isSome_iff_exists.mp (Option.some.inj hverify)
  · obtain ⟨-, henable, hof, hint, -⟩ := rowOf_of_enroll (by decide) (by decide) hserve hrow
    have hle := ((visible_iff_index hof (by decide) (by decide) hint henable).mp hvisible).1
    rw [hindex] at hle
    exact absurd hle (by decide)

end BiometricAuth
