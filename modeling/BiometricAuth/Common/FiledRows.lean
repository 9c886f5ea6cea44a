import BiometricAuth.Common.EmptyIndex
import BiometricAuth.Common.Rename

/-!
# The rows a rename is about

`bio_comm_feature_rename_by_db` reads the features of the user on the device and goes through the
samples of those with the wanted index. It means the rows with the key of the feature
(`featureKey`): the uid, the current UUID of the user, the biotype and the driver of the device, and
the index. For the index `-1` the query has no upper bound, and the loop drops the features it lists
too many; but there an index from `2^31` on is read as another one, and may come under the index
`-1` (`FiledApart`).

Main results:

* `renameTargets_userFeatures`: the rows a rename is about, in the order it goes through them;
* `filedApart_iff`: when they are the rows of the feature;
* `filedRows_eq_append`: in any case these come first.
-/

namespace BiometricAuth

/-! ### The rows that are renamed -/

/-- The columns that tell the feature of a user on a device from the others. -/
def featureKey (uuidOf : ℤ → String) (dev : BioDev) (uid idx : ℤ) : FeatureKey where
  uid := uid
  uuid := some (uuidOf uid)
  bioType := dev.biotype.code
  driver := dev.deviceName
  eigenIndex := idx

/-- The rows of the feature, in the order of the reader. -/
def renamedRows (uuidOf : ℤ → String) (db : EigenInfo) (dev : BioDev) (uid idx : ℤ) :
    List EigenRow :=
  (currentRows uuidOf db (dev.query uid idx idx)).filter
    fun r => r.uid = uid ∧ r.eigenIndex = idx

theorem mem_renamedRows {uuidOf : ℤ → String} {db : EigenInfo} {dev : BioDev} {uid idx : ℤ}
    {r : EigenRow} (huid : uid ≠ -1) :
    r ∈ renamedRows uuidOf db dev uid idx ↔
      r ∈ db.rows ∧ r.key = featureKey uuidOf dev uid idx := by
  have hbio : dev.biotype.code ≠ -1 := by
    have := dev.biotype.code_nonneg
    omega
  simp only [renamedRows, List.mem_filter, mem_currentRows, FeatureQuery.selects_iff,
    decide_eq_true_eq, EigenRow.isCurrent, BioDev.query, featureKey, EigenRow.key,
    FeatureKey.mk.injEq, and_assoc]
  refine and_congr_right fun _ => ?_
  constructor
  · rintro ⟨-, -, hbt, hdriver, -, huuid, rfl, hidx⟩
    exact ⟨rfl, huuid, hbt.resolve_left hbio, hdriver _ rfl, hidx⟩
  · rintro ⟨rfl, huuid, hbt, hdriver, rfl⟩
    refine ⟨le_refl _, .inr rfl, .inr hbt, fun d hd => ?_, .inr (le_refl _), huuid, rfl, rfl⟩
    rw [hdriver, Option.some.inj hd]

theorem renamedRows_nodup (uuidOf : ℤ → String) (db : EigenInfo) (dev : BioDev) (uid idx : ℤ) :
    (renamedRows uuidOf db dev uid idx).Nodup :=
  ((List.Nodup.of_map _ (selectRows_ids_nodup db _)).filter _).filter _

/-- The samples of the features with one uid and index are the rows with them. -/
theorem renameTargets_featuresOf {rows : List EigenRow}
    (hsorted : rows.Pairwise fun r r' => r.key ≤ r'.key) (uid idx : ℤ) :
    renameTargets (featuresOf rows) uid idx =
      (rows.filter fun r => r.uid = uid ∧ r.eigenIndex = idx).map EigenRow.toSample := by
  -- the rows are the groups of the features, one behind the other
  conv_rhs => rw [← Grouping.groups_flatMap EigenRow.key hsorted]
  unfold renameTargets featuresOf
  rw [List.filter_map, List.flatMap_map, List.filter_flatMap, List.map_flatMap]
  have hgroup : ∀ g ∈ Grouping.groups EigenRow.key rows,
      g.2.filter (fun r => decide (r.uid = uid ∧ r.eigenIndex = idx)) =
        if g.1.uid = uid ∧ g.1.eigenIndex = idx then g.2 else [] := by
    intro g hg
    -- all rows of a group have its key
    have hkey : ∀ r ∈ g.2, r.key = g.1 := by
      intro r hr
      rw [((Grouping.mem_groups EigenRow.key).mp hg).2, List.mem_filter] at hr
      exact of_decide_eq_true hr.2
    split
    next hof =>
      refine List.filter_eq_self.mpr fun r hr => decide_eq_true ?_
      rw [← EigenRow.key_uid, ← EigenRow.key_eigenIndex, hkey r hr]
      exact hof
    next hof =>
      -- and no row of another group is of the user and the index
      refine List.filter_eq_nil_iff.mpr fun r hr hr' => hof ?_
      rw [← hkey r hr]
      exact of_decide_eq_true hr'
  have hfeature : (fun info : FeatureInfo => decide (info.uid = uid ∧ info.index = idx)) ∘
      featureOf = fun g => decide (g.1.uid = uid ∧ g.1.eigenIndex = idx) := rfl
  rw [hfeature]
  generalize Grouping.groups EigenRow.key rows = gs at hgroup
  induction gs with
  | nil => rfl
  | cons g gs ih =>
    rw [List.flatMap_cons, ← ih fun g' hg' => hgroup g' (List.mem_cons_of_mem g hg'),
      hgroup g List.mem_cons_self, List.filter_cons]
    by_cases hof : g.1.uid = uid ∧ g.1.eigenIndex = idx
    · rw [if_pos (decide_eq_true hof), if_pos hof, List.flatMap_cons]
      rfl
    · rw [if_neg (by rwa [decide_eq_true_eq]), if_neg hof]
      rfl

/-! ### The rows that are filed under an index

Of one user, biotype and driver, the reader opens a feature for an index that is larger than that of
the last one. So a row is filed under the largest index that has been read so far. -/

/-- A row is filed under the index `idx`. -/
def FiledUnder (q : FeatureQuery) (rows : List EigenRow) (idx : ℤ) (r : EigenRow) : Prop :=
  (∀ r' ∈ rows, r'.eigenIndex ≤ r.eigenIndex → (q.columns r').eigenIndex ≤ idx) ∧
    ∃ r' ∈ rows, r'.eigenIndex ≤ r.eigenIndex ∧ (q.columns r').eigenIndex = idx

instance (q : FeatureQuery) (rows : List EigenRow) (idx : ℤ) (r : EigenRow) :
    Decidable (FiledUnder q rows idx r) := inferInstanceAs (Decidable (_ ∧ _))

section Filed

variable {rows : List EigenRow} {r : EigenRow} {q : FeatureQuery} {uid bioType : ℤ}
  {driver : String}

/-- The rows are of one user, biotype and driver. -/
def SameFeature (rows : List EigenRow) (uid bioType : ℤ) (driver : String) : Prop :=
  ∀ r ∈ rows, r.uid = uid ∧ r.bioType = bioType ∧ r.driver = driver

theorem SameFeature.of_append (h : SameFeature (rows ++ [r]) uid bioType driver) :
    SameFeature rows uid bioType driver := fun r' hr' => h r' (List.mem_append_left _ hr')

/-- Of such rows the index alone decides. -/
theorem SameFeature.fileRow_eq (h : SameFeature (rows ++ [r]) uid bioType driver)
    {last : FeatureInfo} (hlast : (fileRows rows).getLast? = some last) :
    last.uid = uid ∧ fileRow (fileRows rows) r =
      if last.index < r.eigenIndex then fileRows rows ++ [r.toFeature]
      else (fileRows rows).dropLast ++ [{ last with samples := last.samples ++ [r.toSample] }] := by
  obtain ⟨-, r₀, hr₀, hheader⟩ := exists_row_of_mem_fileRows (List.mem_of_getLast? hlast)
  obtain ⟨huid₀, hbio₀, hdriver₀⟩ := h.of_append r₀ hr₀
  obtain ⟨-, hbio, hdriver⟩ := h r (by simp)
  have hbio' : last.biotype = r.bioType := by
    rw [hheader, hbio]
    exact hbio₀
  have hdriver' : last.driver = r.driver := by
    rw [hheader, hdriver]
    exact hdriver₀
  refine ⟨by rw [hheader]; exact huid₀, ?_⟩
  rw [fileRow_of_last hlast]
  simp only [hbio', hdriver', lt_irrefl, ne_eq, not_true_eq_false, false_or]

/-- Without a feature there has been no row. -/
theorem eq_nil_of_fileRows_eq_nil (h : (fileRows rows).getLast? = none) : rows = [] := by
  have hsamples := fileRows_samples rows
  rw [List.getLast?_eq_none_iff.mp h] at hsamples
  exact List.map_eq_nil_iff.mp hsamples.symm

/-- One more row is filed under the largest index so far, its own included. -/
theorem SameFeature.renameTargets_append (h : SameFeature (rows ++ [r]) uid bioType driver)
    (idx : ℤ) {last : FeatureInfo} (hlast : (fileRows rows).getLast? = some last) :
    renameTargets (fileRows (rows ++ [r])) uid idx =
        renameTargets (fileRows rows) uid idx ++
          (if max last.index r.eigenIndex = idx then [r.toSample] else []) ∧
      ∃ last', (fileRows (rows ++ [r])).getLast? = some last' ∧
        last'.index = max last.index r.eigenIndex := by
  obtain ⟨hluid, hfile⟩ := h.fileRow_eq hlast
  have huid : r.uid = uid := (h r (by simp)).1
  rw [fileRows_append_singleton, hfile]
  by_cases hlt : last.index < r.eigenIndex
  · -- a feature of its own
    rw [if_pos hlt, max_eq_right hlt.le]
    refine ⟨?_, r.toFeature, List.getLast?_concat, rfl⟩
    rw [renameTargets, List.filter_append, List.flatMap_append, ← renameTargets,
      List.filter_singleton]
    by_cases hidx : r.eigenIndex = idx <;> simp [huid, hidx, EigenRow.toFeature]
  · -- a sample of the last one
    rw [if_neg hlt, max_eq_left (not_lt.mp hlt)]
    refine ⟨?_, _, List.getLast?_concat, rfl⟩
    obtain ⟨init, hinit⟩ := List.getLast?_eq_some_iff.mp hlast
    rw [hinit, List.dropLast_concat]
    simp only [renameTargets, List.filter_append, List.flatMap_append, List.append_assoc]
    by_cases hidx : last.index = idx <;> simp [hluid, hidx]

/-- The last feature has the largest index that was read. -/
theorem SameFeature.isGreatest (h : SameFeature rows uid bioType driver) {last : FeatureInfo}
    (hlast : (fileRows rows).getLast? = some last) :
    IsGreatest {i | ∃ r ∈ rows, r.eigenIndex = i} last.index := by
  induction rows using List.reverseRecOn generalizing last with
  | nil => simp at hlast
  | append_singleton rows r ih =>
    -- the new row adds its index
    have hset : {i | ∃ r' ∈ rows ++ [r], r'.eigenIndex = i} =
        {i | ∃ r' ∈ rows, r'.eigenIndex = i} ∪ {r.eigenIndex} := by
      ext i
      simp only [List.mem_append, List.mem_singleton, or_and_right, exists_or, exists_eq_left,
        Set.mem_ofPred_eq, Set.mem_union, Set.mem_singleton_iff]
      rw [eq_comm (a := i)]
    rw [hset]
    cases hlast₀ : (fileRows rows).getLast? with
    | none =>
      -- nothing was filed before, so the row is the only one
      obtain rfl := eq_nil_of_fileRows_eq_nil hlast₀
      obtain rfl := Option.some.inj hlast
      simp [EigenRow.toFeature]
    | some last₀ =>
      -- the last feature is that of the new row, whose index is the largest if it comes later
      obtain ⟨last', hlast', hindex⟩ := (h.renameTargets_append 0 hlast₀).2
      obtain rfl := Option.some.inj (hlast'.symm.trans hlast)
      rw [hindex]
      exact (ih h.of_append hlast₀).union isGreatest_singleton

/-- The features come in the order of their indices. -/
theorem SameFeature.pairwise_index (h : SameFeature rows uid bioType driver) :
    (fileRows rows).Pairwise fun f g => f.index < g.index := by
  induction rows using List.reverseRecOn with
  | nil => exact .nil
  | append_singleton rows r ih =>
    cases hlast : (fileRows rows).getLast? with
    | none =>
      obtain rfl := eq_nil_of_fileRows_eq_nil hlast
      simp [fileRows, fileRow]
    | some last =>
      obtain ⟨-, hfile⟩ := h.fileRow_eq hlast
      obtain ⟨init, hinit⟩ := List.getLast?_eq_some_iff.mp hlast
      have hinner := ih h.of_append
      rw [fileRows_append_singleton, hfile]
      rw [hinit] at hinner ⊢
      obtain ⟨hinit', -, hbelow⟩ := List.pairwise_append.mp hinner
      by_cases hlt : last.index < r.eigenIndex
      · -- a feature behind the last one
        rw [if_pos hlt]
        refine List.pairwise_append.mpr ⟨hinner, List.pairwise_singleton _ _, ?_⟩
        intro f hf g hg
        obtain rfl := List.mem_singleton.mp hg
        rcases List.mem_append.mp hf with hf | hf
        · exact (hbelow f hf last (by simp)).trans hlt
        · obtain rfl := List.mem_singleton.mp hf
          exact hlt
      · -- a further sample of the last one
        rw [if_neg hlt, List.dropLast_concat]
        refine List.pairwise_append.mpr ⟨hinit', List.pairwise_singleton _ _, ?_⟩
        intro f hf g hg
        obtain rfl := List.mem_singleton.mp hg
        exact hbelow f hf last (by simp)

/-- The index a row is read with goes by the index it is stored with. -/
theorem FeatureQuery.columns_eigenIndex_congr {r r' : EigenRow} (h : r.eigenIndex = r'.eigenIndex) :
    (q.columns r).eigenIndex = (q.columns r').eigenIndex := by
  simp only [FeatureQuery.columns, h]

/-- A row at the end changes nothing for those before it. -/
theorem filedUnder_append_iff (hle : ∀ r' ∈ rows, r'.eigenIndex ≤ r.eigenIndex) {r' : EigenRow}
    (hr' : r' ∈ rows) (idx : ℤ) :
    FiledUnder q (rows ++ [r]) idx r' ↔ FiledUnder q rows idx r' := by
  have hread : r.eigenIndex ≤ r'.eigenIndex →
      (q.columns r').eigenIndex = (q.columns r).eigenIndex := fun hge =>
    FeatureQuery.columns_eigenIndex_congr (le_antisymm (hle r' hr') hge)
  unfold FiledUnder
  rw [List.forall_mem_append, List.forall_mem_singleton]
  constructor
  · rintro ⟨⟨hall, -⟩, r'', hr'', hge, heq⟩
    refine ⟨hall, ?_⟩
    rcases List.mem_append.mp hr'' with hr'' | hr''
    · exact ⟨r'', hr'', hge, heq⟩
    · obtain rfl := List.mem_singleton.mp hr''
      exact ⟨r', hr', le_refl _, (hread hge).trans heq⟩
  · rintro ⟨hall, r'', hr'', hge, heq⟩
    refine ⟨⟨hall, fun hge => ?_⟩, r'', List.mem_append_left _ hr'', hge, heq⟩
    rw [← hread hge]
    exact hall r' hr' (le_refl _)

/-- The row at the end is filed under the largest index of all. -/
theorem filedUnder_last_iff (hle : ∀ r' ∈ rows, r'.eigenIndex ≤ r.eigenIndex) (idx : ℤ) :
    FiledUnder q rows idx r ↔
      IsGreatest {i | ∃ r' ∈ rows.map q.columns, r'.eigenIndex = i} idx := by
  constructor
  · rintro ⟨hub, r', hr', -, heq⟩
    refine ⟨⟨_, List.mem_map_of_mem hr', heq⟩, ?_⟩
    rintro i ⟨r'', hr'', rfl⟩
    obtain ⟨r₁, hr₁, rfl⟩ := List.mem_map.mp hr''
    exact hub r₁ hr₁ (hle r₁ hr₁)
  · rintro ⟨⟨r'', hr'', heq⟩, hub⟩
    obtain ⟨r₁, hr₁, rfl⟩ := List.mem_map.mp hr''
    exact ⟨fun r' hr' _ => hub ⟨_, List.mem_map_of_mem hr', rfl⟩, r₁, hr₁, hle r₁ hr₁, heq⟩

/-- The rows that are listed under the user and an index. -/
theorem renameTargets_fileRows (hsorted : rows.Pairwise fun r r' => r.eigenIndex ≤ r'.eigenIndex)
    (h : SameFeature (rows.map q.columns) uid bioType driver) (idx : ℤ) :
    renameTargets (fileRows (rows.map q.columns)) uid idx =
      (rows.filter fun r => FiledUnder q rows idx r).map EigenRow.toSample := by
  induction rows using List.reverseRecOn with
  | nil => rfl
  | append_singleton rows r ih =>
    obtain ⟨hinner, -, hle⟩ := List.pairwise_append.mp hsorted
    have hle : ∀ r' ∈ rows, r'.eigenIndex ≤ r.eigenIndex := fun r' hr' => hle r' hr' r (by simp)
    have hlast := @filedUnder_last_iff (rows ++ [r]) r q
      (List.forall_mem_append.mpr ⟨hle, by simp⟩) idx
    rw [List.map_append, List.map_singleton] at h hlast ⊢
    rw [List.filter_append, List.map_append, List.filter_congr fun r' hr' =>
      decide_eq_decide.mpr (filedUnder_append_iff hle hr' idx), ← ih hinner h.of_append]
    cases hlast₀ : (fileRows (rows.map q.columns)).getLast? with
    | none =>
      -- the first row
      obtain rfl := List.map_eq_nil_iff.mp (eq_nil_of_fileRows_eq_nil hlast₀)
      have huid : (q.columns r).uid = uid := (h _ (by simp)).1
      by_cases hidx : (q.columns r).eigenIndex = idx
      · have hfiled : FiledUnder q [r] idx r := by simp [FiledUnder, hidx]
        simp [fileRows, fileRow, renameTargets, EigenRow.toFeature, hfiled, hidx, huid,
          EigenRow.toSample]
      · have hfiled : ¬ FiledUnder q [r] idx r := by simp [FiledUnder, hidx]
        simp [fileRows, fileRow, renameTargets, EigenRow.toFeature, hfiled, hidx]
    | some last₀ =>
      -- a later row is filed under the larger of its index and that of the last feature
      obtain ⟨htargets, last, hlast', hindex⟩ := h.renameTargets_append idx hlast₀
      have hgreatest := h.isGreatest hlast'
      have hfiled : FiledUnder q (rows ++ [r]) idx r ↔
          max last₀.index (q.columns r).eigenIndex = idx := by
        rw [hlast, ← hindex]
        exact ⟨fun htop => hgreatest.unique htop, fun heq => heq ▸ hgreatest⟩
      rw [htargets, List.filter_singleton, decide_eq_decide.mpr hfiled]
      by_cases hidx : max last₀.index (q.columns r).eigenIndex = idx
      · rw [if_pos hidx, decide_eq_true hidx]
        rfl
      · rw [if_neg hidx, decide_eq_false hidx]
        rfl

/-- One more row leaves the features, but for the samples of the last one. -/
theorem exists_feature_of_append {info : FeatureInfo} (h : info ∈ fileRows rows) (r : EigenRow) :
    ∃ samples, { info with samples := info.samples ++ samples } ∈ fileRows (rows ++ [r]) := by
  rw [fileRows_append_singleton]
  rcases fileRow_cases (fileRows rows) r with heq | ⟨init, last, hinfos, heq⟩
  · exact ⟨[], by rw [heq, List.append_nil]; exact List.mem_append_left _ h⟩
  · rw [heq]
    rw [hinfos] at h
    rcases List.mem_append.mp h with h | h
    · exact ⟨[], by rw [List.append_nil]; exact List.mem_append_left _ h⟩
    · obtain rfl := List.mem_singleton.mp h
      exact ⟨[r.toSample], by simp⟩

/-- A row is filed under its own index, with the name of the first row that has it, where no row up
to there is read with another one. -/
theorem SameFeature.exists_feature
    (hsorted : rows.Pairwise fun r r' => r.eigenIndex ≤ r'.eigenIndex)
    (h : SameFeature (rows.map q.columns) uid bioType driver) {r : EigenRow} (hr : r ∈ rows)
    (hread : ∀ r' ∈ rows, r'.eigenIndex ≤ r.eigenIndex →
      (q.columns r').eigenIndex = r'.eigenIndex) :
    ∃ info ∈ fileRows (rows.map q.columns), info.index = r.eigenIndex ∧
      r.toSample ∈ info.samples ∧
      (rows.find? fun r' => r'.eigenIndex = r.eigenIndex).map EigenRow.eigenIndexName =
        some info.indexName := by
  induction rows using List.reverseRecOn generalizing r with
  | nil => cases hr
  | append_singleton rows s ih =>
    obtain ⟨hinner, -, hle⟩ := List.pairwise_append.mp hsorted
    have hle : ∀ r' ∈ rows, r'.eigenIndex ≤ s.eigenIndex := fun r' hr' => hle r' hr' s (by simp)
    rw [List.map_append, List.map_singleton] at h ⊢
    -- the feature of an earlier row is there before this row, and is the first with its name
    have hold : ∀ r ∈ rows, r.eigenIndex ≤ s.eigenIndex → (∀ r' ∈ rows ++ [s],
        r'.eigenIndex ≤ r.eigenIndex → (q.columns r').eigenIndex = r'.eigenIndex) →
        ∃ info ∈ fileRows (rows.map q.columns), info.index = r.eigenIndex ∧
          r.toSample ∈ info.samples ∧ ((rows ++ [s]).find? fun r' =>
            r'.eigenIndex = r.eigenIndex).map EigenRow.eigenIndexName = some info.indexName := by
      intro r hr _ hread
      obtain ⟨info, hinfo, hindex, hsample, hname⟩ := ih hinner h.of_append hr
        fun r' hr' => hread r' (List.mem_append_left _ hr')
      obtain ⟨first, hfirst, -⟩ := Option.map_eq_some_iff.mp hname
      refine ⟨info, hinfo, hindex, hsample, ?_⟩
      rwa [List.find?_append, hfirst, Option.some_or, ← hfirst]
    rcases List.mem_append.mp hr with hr | hr
    · -- a row that was there before
      obtain ⟨info, hinfo, hindex, hsample, hname⟩ := hold r hr (hle r hr) hread
      obtain ⟨samples, hinfo'⟩ := exists_feature_of_append hinfo (q.columns s)
      exact ⟨_, hinfo', hindex, List.mem_append_left _ hsample, hname⟩
    obtain rfl := List.mem_singleton.mp hr
    have hreadr : (q.columns r).eigenIndex = r.eigenIndex := hread r (by simp) (le_refl _)
    cases hlast : (fileRows (rows.map q.columns)).getLast? with
    | none =>
      -- the first row
      obtain rfl := List.map_eq_nil_iff.mp (eq_nil_of_fileRows_eq_nil hlast)
      exact ⟨(q.columns r).toFeature, by simp [fileRows, fileRow], hreadr,
        List.mem_singleton_self _, by simp [EigenRow.toFeature]⟩
    | some last =>
      obtain ⟨-, hfile⟩ := h.fileRow_eq hlast
      -- the last feature has the index of one of the rows
      obtain ⟨⟨r', hr', hlastIndex⟩, hub⟩ := h.of_append.isGreatest hlast
      obtain ⟨r₁, hr₁, rfl⟩ := List.mem_map.mp hr'
      rw [hread r₁ (List.mem_append_left _ hr₁) (hle r₁ hr₁)] at hlastIndex
      rw [fileRows_append_singleton, hfile, hreadr]
      by_cases hlt : last.index < r.eigenIndex
      · -- the index is new
        rw [if_pos hlt]
        have hnone : (rows.find? fun r' => r'.eigenIndex = r.eigenIndex) = none := by
          refine List.find?_eq_none.mpr fun r₂ hr₂ heq => ?_
          have heq := of_decide_eq_true heq
          have hmax : (q.columns r₂).eigenIndex ≤ last.index :=
            hub ⟨_, List.mem_map_of_mem hr₂, rfl⟩
          rw [hread r₂ (List.mem_append_left _ hr₂) (hle r₂ hr₂)] at hmax
          omega
        refine ⟨(q.columns r).toFeature, by simp, hreadr, List.mem_singleton_self _, ?_⟩
        rw [List.find?_append, hnone]
        simp [EigenRow.toFeature]
      · -- the last feature has it
        have hsame : r₁.eigenIndex = r.eigenIndex := by
          have := hle r₁ hr₁
          omega
        obtain ⟨info, hinfo, hindex, -, hname⟩ := hold r₁ hr₁ (hle r₁ hr₁) (hsame ▸ hread)
        have hinfoLast : info = last := by
          obtain ⟨init, hinit⟩ := List.getLast?_eq_some_iff.mp hlast
          have hpair := h.of_append.pairwise_index
          rw [hinit] at hinfo hpair
          rcases List.mem_append.mp hinfo with hinfo | hinfo
          · have := (List.pairwise_append.mp hpair).2.2 info hinfo last (by simp)
            omega
          · exact List.mem_singleton.mp hinfo
        rw [if_neg hlt]
        refine ⟨{ last with samples := last.samples ++ [(q.columns r).toSample] }, by simp,
          hlastIndex.symm.trans hsame, List.mem_append_right _ (List.mem_singleton_self _), ?_⟩
        rw [← hinfoLast, ← hname, hsame]

end Filed

/-! ### What comes under the wanted index -/

section Query

variable {uuidOf : ℤ → String} {dev : BioDev} {uid idx : ℤ}

/-- An index from `2^31` on does not come under the index `-1`: if none of the indices in use up to
it, from `0`, is read as `0` or more, it is not read as `-1`, and `-1` is not in use. -/
def FiledApart (uuidOf : ℤ → String) (db : EigenInfo) (dev : BioDev) (uid idx : ℤ) : Prop :=
  idx = -1 → ∀ i, 0 ≤ i → UsedIndex uuidOf db dev uid i →
    (∀ j, 0 ≤ j → j ≤ i → UsedIndex uuidOf db dev uid j → columnInt j < 0) →
    columnInt i ≠ -1 ∧ ¬ UsedIndex uuidOf db dev uid (-1)

/-- The current rows of a user on the device differ in the index. -/
theorem key_of_mem_currentRows {db : EigenInfo} {idxStart idxEnd : ℤ} (huid : uid ≠ -1)
    {r : EigenRow} (hr : r ∈ currentRows uuidOf db (dev.query uid idxStart idxEnd)) :
    r.key = featureKey uuidOf dev uid r.eigenIndex := by
  obtain ⟨-, hselects, hcurrent⟩ := mem_currentRows.mp hr
  obtain ⟨-, hruid, hbio, hdriver, -⟩ := FeatureQuery.selects_iff.mp hselects
  have hruid : r.uid = uid := hruid.resolve_left huid
  have hbio : r.bioType = dev.biotype.code := by
    have hcode := dev.biotype.code_nonneg
    exact hbio.resolve_left (by simp only [BioDev.query]; omega)
  have huuid : r.uuid = some (uuidOf uid) := hruid ▸ of_decide_eq_true hcurrent
  simp only [EigenRow.key, featureKey, FeatureKey.mk.injEq, and_true]
  exact ⟨hruid, huuid, hbio, hdriver _ rfl⟩

/-- So all of them are read as rows of one user, biotype and driver. -/
theorem sameFeature_columns (db : EigenInfo) (idxStart idxEnd : ℤ) (huid : uid ≠ -1) :
    SameFeature ((currentRows uuidOf db (dev.query uid idxStart idxEnd)).map
      (dev.query uid idxStart idxEnd).columns) uid dev.biotype.code dev.deviceName := by
  rintro r' hr'
  obtain ⟨r, hr, rfl⟩ := List.mem_map.mp hr'
  have hkey := key_of_mem_currentRows huid hr
  refine ⟨?_, ?_, congrArg FeatureKey.driver hkey⟩
  · rw [FeatureQuery.columns_uid huid]
    exact congrArg FeatureKey.uid hkey
  · rw [FeatureQuery.columns_bioType dev.biotype.code_nonneg]
    exact congrArg FeatureKey.bioType hkey

/-- The rows of the query are those of the indices in use from `idx` on. -/
theorem mem_currentRows_query {db : EigenInfo} (huid : uid ≠ -1) {r : EigenRow} :
    r ∈ currentRows uuidOf db (dev.query uid idx idx) ↔
      r ∈ db.rows ∧ r.key = featureKey uuidOf dev uid r.eigenIndex ∧ idx ≤ r.eigenIndex ∧
        (idx ≠ -1 → r.eigenIndex = idx) := by
  have hbio : dev.biotype.code ≠ -1 := by
    have := dev.biotype.code_nonneg
    omega
  rw [mem_currentRows, FeatureQuery.selects_iff]
  simp only [BioDev.query, huid, hbio, false_or, Option.some.injEq, forall_eq',
    EigenRow.isCurrent, decide_eq_true_eq, featureKey, EigenRow.key, FeatureKey.mk.injEq, and_true]
  constructor
  · rintro ⟨hr, ⟨hle, hu, hbt, hdriver, hend⟩, huuid⟩
    exact ⟨hr, ⟨hu, hu ▸ huuid, hbt, hdriver⟩, hle,
      fun hne => le_antisymm (hend.resolve_left hne) hle⟩
  · rintro ⟨hr, ⟨hu, huuid, hbt, hdriver⟩, hle, hend⟩
    refine ⟨hr, ⟨hle, hu, hbt, hdriver, ?_⟩, hu ▸ huuid⟩
    by_cases hne : idx = -1
    · exact .inl hne
    · exact .inr (hend hne).le

/-- An index of the query is in use exactly if a row of it has the index. -/
theorem usedIndex_iff_mem {db : EigenInfo} (huid : uid ≠ -1) {idxStart idxEnd i : ℤ}
    (hrange : InIndexRange idxStart idxEnd i) : UsedIndex uuidOf db dev uid i ↔
      ∃ r ∈ currentRows uuidOf db (dev.query uid idxStart idxEnd), r.eigenIndex = i := by
  constructor
  · rintro ⟨r, hr, huuid, rfl, hbt, hdriver, rfl⟩
    refine ⟨r, mem_currentRows.mpr ⟨hr, FeatureQuery.selects_iff.mpr ?_, huuid⟩, rfl⟩
    exact ⟨hrange.1, .inr rfl, .inr hbt, fun d hd => hdriver.trans (Option.some.inj hd), hrange.2⟩
  · rintro ⟨r, hr, rfl⟩
    have hkey := key_of_mem_currentRows huid hr
    obtain ⟨hrow, -, huuid⟩ := mem_currentRows.mp hr
    exact ⟨r, hrow, huuid, congrArg FeatureKey.uid hkey, congrArg FeatureKey.bioType hkey,
      congrArg FeatureKey.driver hkey, rfl⟩

/-- The rows come in the order of their index. -/
theorem currentRows_eigenIndex_sorted (db : EigenInfo) (idxStart idxEnd : ℤ) (huid : uid ≠ -1) :
    (currentRows uuidOf db (dev.query uid idxStart idxEnd)).Pairwise
      fun r r' => r.eigenIndex ≤ r'.eigenIndex := by
  refine (currentRows_sorted uuidOf db _).imp_of_mem fun {r r'} hr hr' hle => ?_
  have hkey := key_of_mem_currentRows huid hr
  have hkey' := key_of_mem_currentRows huid hr'
  rcases hle.eq_or_lt with heq | hlt
  · exact (congrArg FeatureKey.eigenIndex heq).le
  · have htail := FeatureKey.tail_lt hlt (by rw [hkey, hkey']; rfl) (by rw [hkey, hkey']; rfl)
    rw [hkey, hkey'] at htail
    simp only [featureKey, lt_irrefl, true_and, false_or] at htail
    exact htail.le

/-- The rows a rename is about, in the order of the loop: those the reader lists under the user and
the index. -/
def filedRows (uuidOf : ℤ → String) (db : EigenInfo) (dev : BioDev) (uid idx : ℤ) :
    List EigenRow :=
  (currentRows uuidOf db (dev.query uid idx idx)).filter fun r =>
    FiledUnder (dev.query uid idx idx) (currentRows uuidOf db (dev.query uid idx idx)) idx r

/-- For a user the listed samples are theirs. -/
theorem renameTargets_userFeatures (db : EigenInfo) (huid : uid ≠ -1) :
    renameTargets (userFeatures uuidOf db (dev.query uid idx idx)) uid idx =
      (filedRows uuidOf db dev uid idx).map EigenRow.toSample :=
  @renameTargets_fileRows _ (dev.query uid idx idx) uid dev.biotype.code dev.deviceName
    (currentRows_eigenIndex_sorted db idx idx huid) (sameFeature_columns db idx idx huid) idx

/-- A row of the feature is filed under its index. -/
theorem filedUnder_of_eigenIndex {db : EigenInfo} (huid : uid ≠ -1) {r : EigenRow}
    (hr : r ∈ currentRows uuidOf db (dev.query uid idx idx)) (hidx : r.eigenIndex = idx) :
    FiledUnder (dev.query uid idx idx) (currentRows uuidOf db (dev.query uid idx idx)) idx r := by
  -- an index of the query that is not larger is `idx`, which is read as itself
  have hread : ∀ r' : EigenRow, r'.eigenIndex = idx →
      ((dev.query uid idx idx).columns r').eigenIndex = idx := by
    intro r' hr'
    by_cases hend : idx = -1
    · rw [FeatureQuery.columns_eigenIndex_unbounded hend, hr', hend]
      rfl
    · exact (FeatureQuery.columns_eigenIndex hend).trans hr'
  refine ⟨fun r' hr' hle => ?_, r, hr, le_refl _, hread r hidx⟩
  have hge := ((mem_currentRows_query huid).mp hr').2.2.1
  rw [hread r' (by omega)]

/-- No other row is, exactly if the large indices come apart. -/
theorem filedApart_iff {db : EigenInfo} (huid : uid ≠ -1) :
    FiledApart uuidOf db dev uid idx ↔ ∀ r ∈ currentRows uuidOf db (dev.query uid idx idx),
      FiledUnder (dev.query uid idx idx) (currentRows uuidOf db (dev.query uid idx idx)) idx r →
        r.eigenIndex = idx := by
  -- with an upper end that is not `-1`, the query selects the index alone
  by_cases hend : idx = -1
  swap
  · exact iff_of_true (fun h => absurd h hend) fun r hr _ =>
      ((mem_currentRows_query huid).mp hr).2.2.2 hend
  subst hend
  have hused : ∀ {i : ℤ}, -1 ≤ i → (UsedIndex uuidOf db dev uid i ↔
      ∃ r ∈ currentRows uuidOf db (dev.query uid (-1) (-1)), r.eigenIndex = i) :=
    fun hi => usedIndex_iff_mem huid ⟨hi, .inl rfl⟩
  -- without an upper end the index is read with `columnInt`
  have hread : ∀ r : EigenRow, ((dev.query uid (-1) (-1)).columns r).eigenIndex =
      columnInt r.eigenIndex := fun r => FeatureQuery.columns_eigenIndex_unbounded rfl
  have hle : ∀ r ∈ currentRows uuidOf db (dev.query uid (-1) (-1)), -1 ≤ r.eigenIndex :=
    fun r hr => ((mem_currentRows_query huid).mp hr).2.2.1
  unfold FiledUnder
  simp only [hread]
  constructor
  · rintro h r hr ⟨hub, r₁, hr₁, hle₁, hread₁⟩
    by_contra hne
    -- the row that is read as `-1` shows that the large indices do not come apart
    have hcondition : ∀ i, i ≤ r.eigenIndex → 0 ≤ i → UsedIndex uuidOf db dev uid i →
        columnInt i ≠ -1 ∧ ¬ UsedIndex uuidOf db dev uid (-1) := by
      intro i hi hpos hi'
      refine h rfl i hpos hi' fun j hj hji hj' => ?_
      obtain ⟨r', hr', rfl⟩ := (hused (by omega)).mp hj'
      have := hub r' hr' (hji.trans hi)
      omega
    have hpos : 0 ≤ r.eigenIndex := by
      have := hle r hr
      omega
    have hnone := (hcondition r.eigenIndex (le_refl _) hpos
      ((hused (by omega)).mpr ⟨r, hr, rfl⟩)).2
    have hpos₁ : 0 ≤ r₁.eigenIndex := by
      have := hle r₁ hr₁
      by_contra hneg
      exact hnone ((hused (le_refl _)).mpr ⟨r₁, hr₁, by omega⟩)
    -- the row that is read as `-1` is a large one too, which the condition excludes
    exact (hcondition r₁.eigenIndex hle₁ hpos₁
      ((hused (by omega)).mpr ⟨r₁, hr₁, rfl⟩)).1 hread₁
  · rintro h - i hi hi' hbelow
    obtain ⟨r, hr, rfl⟩ := (hused (by omega)).mp hi'
    have hub : ∀ r' ∈ currentRows uuidOf db (dev.query uid (-1) (-1)),
        r'.eigenIndex ≤ r.eigenIndex → columnInt r'.eigenIndex ≤ -1 := by
      intro r' hr' hle'
      by_cases hpos : 0 ≤ r'.eigenIndex
      · have := hbelow r'.eigenIndex hpos hle' ((hused (by omega)).mpr ⟨r', hr', rfl⟩)
        omega
      · have hneg : r'.eigenIndex = -1 := by
          have := hle r' hr'
          omega
        rw [hneg]
        exact le_of_eq rfl
    constructor
    · -- a row that is read as `-1` would be filed under it
      intro hread'
      have := h r hr ⟨hub, r, hr, le_refl _, hread'⟩
      omega
    · -- behind a row of index `-1`, the large one would be filed under it too
      intro hminus
      obtain ⟨r₁, hr₁, hidx₁⟩ := (hused (le_refl _)).mp hminus
      have := h r hr ⟨hub, r₁, hr₁, by omega, by rw [hidx₁]; rfl⟩
      omega

/-- Then the rename is about the rows of the feature. -/
theorem filedRows_eq_renamedRows {db : EigenInfo} (huid : uid ≠ -1)
    (hapart : FiledApart uuidOf db dev uid idx) :
    filedRows uuidOf db dev uid idx = renamedRows uuidOf db dev uid idx := by
  refine List.filter_congr fun r hr => decide_eq_decide.mpr ?_
  have hruid := congrArg FeatureKey.uid ((mem_currentRows_query huid).mp hr).2.1
  exact ⟨fun hfiled => ⟨hruid, (filedApart_iff huid).mp hapart r hr hfiled⟩,
    fun h => filedUnder_of_eigenIndex huid hr h.2⟩

/-- The rows of the feature come first among them. -/
theorem filedRows_eq_append (db : EigenInfo) (huid : uid ≠ -1) :
    filedRows uuidOf db dev uid idx = renamedRows uuidOf db dev uid idx ++
      (filedRows uuidOf db dev uid idx).filter fun r => r.eigenIndex ≠ idx := by
  have hle : ∀ r ∈ filedRows uuidOf db dev uid idx, idx ≤ r.eigenIndex := fun r hr =>
    ((mem_currentRows_query huid).mp (List.mem_filter.mp hr).1).2.2.1
  -- the rows of the feature are those that have the index itself
  have hrenamed : renamedRows uuidOf db dev uid idx =
      (filedRows uuidOf db dev uid idx).filter fun r => r.eigenIndex = idx := by
    rw [filedRows, List.filter_filter, renamedRows]
    refine List.filter_congr fun r hr => ?_
    have hruid := congrArg FeatureKey.uid ((mem_currentRows_query huid).mp hr).2.1
    rw [← Bool.decide_and]
    refine decide_eq_decide.mpr ⟨fun h => ⟨h.2, filedUnder_of_eigenIndex huid hr h.2⟩,
      fun h => ⟨hruid, h.1⟩⟩
  rw [hrenamed]
  -- they come sorted by the index, which is the least
  have hsorted : (filedRows uuidOf db dev uid idx).Pairwise fun r r' =>
      r.eigenIndex ≤ r'.eigenIndex :=
    (currentRows_eigenIndex_sorted db idx idx huid).sublist List.filter_sublist
  generalize filedRows uuidOf db dev uid idx = rows at hle hsorted
  induction rows with
  | nil => rfl
  | cons r rows ih =>
    rw [List.pairwise_cons] at hsorted
    rw [List.forall_mem_cons] at hle
    by_cases hidx : r.eigenIndex = idx
    · rw [List.filter_cons_of_pos (by simpa using hidx), List.filter_cons_of_neg (by simpa),
        List.cons_append, ← ih hle.2 hsorted.2]
    · -- past the index there is none of them
      have hnone : rows.filter (fun r => r.eigenIndex = idx) = [] := by
        refine List.filter_eq_nil_iff.mpr fun r' hr' hidx' => hidx ?_
        have hge := hsorted.1 r' hr'
        have := of_decide_eq_true hidx'
        have := hle.1
        omega
      have hall : rows.filter (fun r => r.eigenIndex ≠ idx) = rows := by
        refine List.filter_eq_self.mpr fun r' hr' => decide_eq_true fun hidx' => ?_
        exact List.filter_eq_nil_iff.mp hnone r' hr' (decide_eq_true hidx')
      rw [List.filter_cons_of_neg (by simpa using hidx), List.filter_cons_of_pos (by simpa),
        hnone, hall, List.nil_append]

end Query

end BiometricAuth
