import BiometricAuth.Common.BioDev
import BiometricAuth.Storage.Writer

/-!
# Picking an index: `bio_common_get_empty_index`

The framework gives a new feature the first index that is free on its device. It
runs over the features of the user on that device, which the reader lists in
increasing order of their index, and stops at the first gap.

Main result: `bioCommonGetEmptyIndex_isLeast` — for one user, started from `0`,
the index is the least that no current row of that user and device has.
-/

namespace BiometricAuth

variable (uuidOf : ℤ → String)

/-! ### `bio_common_get_empty_index` -/

/-- The loop over the list, on `(cmp, empty_index, current_index)`; it stops at
the first index past `empty_index`. -/
def scanEmptyIndex : List FeatureInfo → ℤ × ℤ × ℤ → ℤ × ℤ × ℤ
  | [], st => st
  | info :: infos, (_, emptyIndex, _) =>
    let cmp := info.index - emptyIndex
    let emptyIndex := if cmp = 0 then emptyIndex + 1 else emptyIndex
    if 0 < cmp then (cmp, emptyIndex, info.index)
    else scanEmptyIndex infos (cmp, emptyIndex, info.index)

/-- `bio_common_get_empty_index`; `none` when reading the list crashes. -/
def bioCommonGetEmptyIndex (db : EigenInfo) (dev : BioDev) (uid start endIdx : ℤ) :
    Option ℤ := do
  let endIdx := if endIdx ≠ -1 ∧ endIdx < start then start else endIdx
  let infos ← bioStoGetFeatureInfo uuidOf db (dev.query uid start endIdx)
  let (cmp, emptyIndex, currentIndex) := scanEmptyIndex infos (0, start, -1)
  if 0 < cmp then some emptyIndex
  else if endIdx = -1 then some (currentIndex + 1)
  else some (-1)

/-- What the loop knows: everything below `empty_index` is taken, and without a
gap so far `empty_index` is one past the last index seen. -/
theorem scanEmptyIndex_spec {infos : List FeatureInfo} {emptyIndex : ℤ}
    (hsorted : infos.Pairwise fun f g => f.index < g.index)
    (hge : ∀ f ∈ infos, emptyIndex ≤ f.index) {cmp cur cmp' emptyIndex' cur' : ℤ}
    (hcmp : cmp ≤ 0) (hcur : cur = emptyIndex - 1)
    (h : scanEmptyIndex infos (cmp, emptyIndex, cur) = (cmp', emptyIndex', cur')) :
    (∀ f ∈ infos, f.index ≠ emptyIndex') ∧
    (∀ i, emptyIndex ≤ i → i < emptyIndex' → ∃ f ∈ infos, f.index = i) ∧
    emptyIndex ≤ emptyIndex' ∧ (cmp' ≤ 0 → cur' = emptyIndex' - 1) := by
  -- by induction on the features, for every free index so far
  induction infos generalizing emptyIndex cmp cur with
  | nil =>
    obtain ⟨rfl, rfl, rfl⟩ : cmp = cmp' ∧ emptyIndex = emptyIndex' ∧ cur = cur' := by
      simpa [scanEmptyIndex] using h
    exact ⟨by simp, fun i h₁ h₂ => by omega, le_refl _, fun _ => hcur⟩
  | cons info infos ih =>
    obtain ⟨hinfo, hsorted⟩ := List.pairwise_cons.mp hsorted
    have hge' := hge info (by simp)
    unfold scanEmptyIndex at h
    by_cases heq : info.index - emptyIndex = 0
    · -- the index is taken: go on one further
      simp only [heq, if_true, lt_irrefl, if_false] at h
      obtain ⟨hne, htaken, hle, hlast⟩ := ih hsorted
        (fun f hf => by have := hinfo f hf; omega) (le_refl 0) (by omega) h
      refine ⟨?_, ?_, by omega, hlast⟩
      · intro f hf
        rcases List.mem_cons.mp hf with rfl | hf
        · omega
        · exact hne f hf
      · intro i h₁ h₂
        by_cases hi : emptyIndex + 1 ≤ i
        · obtain ⟨f, hf, hfi⟩ := htaken i hi h₂
          exact ⟨f, by simp [hf], hfi⟩
        · exact ⟨info, by simp, by omega⟩
    · -- a gap: stop
      have hpos : 0 < info.index - emptyIndex := by omega
      simp only [heq, if_false, hpos, if_true, Prod.mk.injEq] at h
      obtain ⟨rfl, rfl, rfl⟩ := h
      refine ⟨?_, fun i h₁ h₂ => by omega, le_refl _, fun hle => by omega⟩
      intro f hf
      rcases List.mem_cons.mp hf with rfl | hf
      · omega
      · have := hinfo f hf
        omega

variable {uuidOf}

/-- The indices a current row of user `uid` on device `dev` has. -/
def UsedIndex (uuidOf : ℤ → String) (db : EigenInfo) (dev : BioDev) (uid i : ℤ) : Prop :=
  ∃ r ∈ db.rows, r.isCurrent uuidOf = true ∧ r.uid = uid ∧ r.bioType = dev.biotype.code ∧
    r.driver = dev.deviceName ∧ r.eigenIndex = i

/-- The indices of the documented list are the ones that current rows have. -/
theorem mem_featuresOf_index {rows : List EigenRow} {i : ℤ} :
    (∃ f ∈ featuresOf rows, f.index = i) ↔ ∃ r ∈ rows, r.eigenIndex = i := by
  constructor
  · rintro ⟨f, hf, rfl⟩
    obtain ⟨g, hg, rfl⟩ := List.mem_map.mp hf
    obtain ⟨r, hr, hkey⟩ := (Grouping.mem_keys EigenRow.key).mp
      ((Grouping.mem_groups EigenRow.key).mp hg).1
    exact ⟨r, hr, by rw [← EigenRow.key_eigenIndex, hkey]; rfl⟩
  · rintro ⟨r, hr, rfl⟩
    have hg : (r.key, rows.filter fun a => a.key = r.key) ∈ Grouping.groups EigenRow.key rows :=
      (Grouping.mem_groups EigenRow.key).mpr ⟨(Grouping.mem_keys EigenRow.key).mpr ⟨r, hr, rfl⟩,
        rfl⟩
    exact ⟨_, List.mem_map_of_mem hg, rfl⟩

/-- The documented list of one user on one device has increasing indices. -/
theorem index_lt_of_order_lt {infos : List FeatureInfo} (biotype : ℤ) (driver : String)
    (hinfos : ∀ f ∈ infos, f.biotype = biotype ∧ f.driver = driver)
    (h : infos.Pairwise fun f g => f.order < g.order) :
    infos.Pairwise fun f g => f.index < g.index := by
  refine h.imp_of_mem fun {f g} hf hg hlt => ?_
  rw [FeatureInfo.order, FeatureInfo.order, (hinfos f hf).1, (hinfos f hf).2, (hinfos g hg).1,
    (hinfos g hg).2] at hlt
  simpa [Prod.Lex.toLex_lt_toLex] using hlt

/-- The indices of the range `[start, end]`, of `[start, ∞)` when `end` is `-1`. -/
def InIndexRange (start endIdx i : ℤ) : Prop := start ≤ i ∧ (endIdx = -1 ∨ i ≤ endIdx)

variable (uuidOf) in
/-- What the function reads for one user: the indices come in increasing order,
and they are the ones of the range that are in use. -/
theorem exists_list_of_range {db : EigenInfo} (dev : BioDev) {uid start endIdx : ℤ}
    (huid : uid ≠ -1) (hints : ∀ i, UsedIndex uuidOf db dev uid i → IsCInt i)
    (huuid : ∀ r ∈ db.rows, (dev.query uid start endIdx).selects r = true → r.uuid ≠ none) :
    ∃ infos, bioStoGetFeatureInfo uuidOf db (dev.query uid start endIdx) = some infos ∧
      (infos.Pairwise fun f g => f.index < g.index) ∧
      ∀ i, (∃ f ∈ infos, f.index = i) ↔
        InIndexRange start endIdx i ∧ UsedIndex uuidOf db dev uid i := by
  have hread := (bioStoGetFeatureInfo_eq_some_iff uuidOf huid
    dev.biotype.code_nonneg).mpr ⟨rfl, huuid⟩
  have hbiotype : dev.biotype.code ≠ -1 := by
    have := dev.biotype.code_nonneg
    omega
  -- the rows behind the list
  set rows := currentRows uuidOf db (dev.query uid start endIdx) with hrows
  have hmem : ∀ r, r ∈ rows ↔ r ∈ db.rows ∧ r.isCurrent uuidOf = true ∧
      InIndexRange start endIdx r.eigenIndex ∧ r.uid = uid ∧ r.bioType = dev.biotype.code ∧
      r.driver = dev.deviceName := by
    intro r
    rw [hrows, mem_currentRows, FeatureQuery.selects_iff]
    simp only [BioDev.query, huid, hbiotype, false_or, Option.some.injEq, forall_eq']
    unfold InIndexRange
    tauto
  have hsorted : rows.Pairwise fun r r' => r.key ≤ r'.key := currentRows_sorted uuidOf db _
  -- the user and the biotype are asked for, and the indices in use are `int`s
  have hwhole : ∀ r ∈ rows, (dev.query uid start endIdx).columns r = r := by
    intro r hr
    obtain ⟨hrow, hcur, -, hu, hbt, hdr⟩ := (hmem r).mp hr
    refine FeatureQuery.columns_eq_self_iff.mpr ⟨FeatureQuery.columns_uid huid,
      FeatureQuery.columns_bioType dev.biotype.code_nonneg, ?_⟩
    exact (if_congr Iff.rfl (columnInt_of_isCInt
      (hints _ ⟨r, hrow, hcur, hu, hbt, hdr, rfl⟩)) rfl).trans (ite_self _)
  rw [userFeatures_eq huid hwhole, ← hrows] at hread
  refine ⟨featuresOf rows, hread, index_lt_of_order_lt dev.biotype.code
    dev.deviceName ?_ (order_lt_of_uid uid (uuidOf uid) hsorted fun r hr => ?_), fun i => ?_⟩
  · -- all listed features are of the device
    intro f hf
    obtain ⟨g, hg, rfl⟩ := List.mem_map.mp hf
    obtain ⟨r, hr, hkey⟩ := (Grouping.mem_keys EigenRow.key).mp
      ((Grouping.mem_groups EigenRow.key).mp hg).1
    obtain ⟨-, -, -, -, hbt, hdr⟩ := (hmem r).mp hr
    exact ⟨by rw [← hbt, ← EigenRow.key_bioType, hkey]; rfl,
      by rw [← hdr, ← EigenRow.key_driver, hkey]; rfl⟩
  · -- and of the user, with his current UUID
    obtain ⟨-, hcur, -, hu, -⟩ := (hmem r).mp hr
    exact ⟨hu, by simpa [EigenRow.isCurrent, hu] using hcur⟩
  · rw [mem_featuresOf_index]
    constructor
    · -- a listed index is that of a row, and so in use
      rintro ⟨r, hr, rfl⟩
      obtain ⟨hrow, hcur, hrange, hu, hbt, hdr⟩ := (hmem r).mp hr
      exact ⟨hrange, r, hrow, hcur, hu, hbt, hdr, rfl⟩
    · rintro ⟨hrange, r, hrow, hcur, hu, hbt, hdr, rfl⟩
      exact ⟨r, (hmem r).mpr ⟨hrow, hcur, hrange, hu, hbt, hdr⟩, rfl⟩

/-- **The index of a new feature.** For one user, started from `0`, the function
returns the least index that no current row of that user and device has, unless it comes upon a row
without a UUID. The indices in use are `int`s, as the reader takes them for. -/
theorem isLeast_of_bioCommonGetEmptyIndex {db : EigenInfo} (dev : BioDev) {uid i : ℤ}
    (huid : uid ≠ -1) (hints : ∀ i, UsedIndex uuidOf db dev uid i → IsCInt i)
    (h : bioCommonGetEmptyIndex uuidOf db dev uid 0 (-1) = some i) :
    IsLeast {i | 0 ≤ i ∧ ¬ UsedIndex uuidOf db dev uid i} i := by
  have hend : (if (-1 : ℤ) ≠ -1 ∧ (-1 : ℤ) < 0 then (0 : ℤ) else -1) = -1 := by decide
  simp only [bioCommonGetEmptyIndex, hend, Option.bind_eq_bind, Option.bind_eq_some_iff] at h
  obtain ⟨infos, hread, h⟩ := h
  have huuid := (exists_bioStoGetFeatureInfo_iff uuidOf dev.biotype.code_nonneg).mp ⟨infos, hread⟩
  obtain ⟨infos', hread', hindex, hlisted⟩ := exists_list_of_range uuidOf dev huid hints huuid
  obtain rfl := Option.some.inj (hread.symm.trans hread')
  have hused : ∀ i, 0 ≤ i → ((∃ f ∈ infos, f.index = i) ↔ UsedIndex uuidOf db dev uid i) :=
    fun i hi => (hlisted i).trans (and_iff_right ⟨hi, .inl rfl⟩)
  have hge : ∀ f ∈ infos, 0 ≤ f.index := fun f hf => ((hlisted f.index).mp ⟨f, hf, rfl⟩).1.1
  rcases hscan : scanEmptyIndex infos (0, 0, -1) with ⟨cmp, emptyIndex, cur⟩
  obtain ⟨hne, htaken, hle, hlast⟩ :=
    scanEmptyIndex_spec hindex hge (le_refl 0) (by omega) hscan
  -- without a gap the index past the last one is `empty_index` too
  have hi : emptyIndex = i := by
    simp only [hscan, if_true] at h
    by_cases hcmp : 0 < cmp
    · exact Option.some.inj ((if_pos hcmp).symm.trans h)
    · have hcur := Option.some.inj ((if_neg hcmp).symm.trans h)
      have hlast := hlast (by omega)
      omega
  subst hi
  refine ⟨⟨hle, fun hu => ?_⟩, fun i hi => ?_⟩
  · obtain ⟨f, hf, hfi⟩ := (hused emptyIndex hle).mpr hu
    exact hne f hf hfi
  · by_contra hlt
    obtain ⟨f, hf, hfi⟩ := htaken i hi.1 (by omega)
    exact hi.2 ((hused i hi.1).mp ⟨f, hf, hfi⟩)

variable (uuidOf) in
/-- Without such rows the function returns. -/
theorem bioCommonGetEmptyIndex_isLeast {db : EigenInfo} (dev : BioDev) {uid : ℤ}
    (huuid : ∀ r ∈ db.rows, r.uuid ≠ none) (huid : uid ≠ -1)
    (hints : ∀ i, UsedIndex uuidOf db dev uid i → IsCInt i) :
    ∃ i, bioCommonGetEmptyIndex uuidOf db dev uid 0 (-1) = some i ∧
      IsLeast {i | 0 ≤ i ∧ ¬ UsedIndex uuidOf db dev uid i} i := by
  obtain ⟨infos, hread⟩ : ∃ infos,
      bioStoGetFeatureInfo uuidOf db (dev.query uid 0 (-1)) = some infos :=
    (exists_bioStoGetFeatureInfo_iff uuidOf dev.biotype.code_nonneg).mpr fun r hr _ => huuid r hr
  have hend : (if (-1 : ℤ) ≠ -1 ∧ (-1 : ℤ) < 0 then (0 : ℤ) else -1) = -1 := by decide
  obtain ⟨i, hi⟩ : ∃ i, bioCommonGetEmptyIndex uuidOf db dev uid 0 (-1) = some i := by
    simp only [bioCommonGetEmptyIndex, hend, hread, Option.bind_eq_bind, Option.bind_some]
    split
    · exact ⟨_, rfl⟩
    · exact ⟨_, if_pos trivial⟩
  exact ⟨i, hi, isLeast_of_bioCommonGetEmptyIndex dev huid hints hi⟩

end BiometricAuth
