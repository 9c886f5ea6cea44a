import BiometricAuth.Common.BioDev
import BiometricAuth.Common.CInt
import BiometricAuth.Lib.FlagTable
import BiometricAuth.Storage.UserFeatures

/-!
# Picking a sample number: `bio_common_get_empty_sample_no`

The function marks the sample numbers in use in `sample_flag`, which has one
place for each number up to `end`, and returns the first unmarked one of the
range `[start, end]`. The numbers it marks are those of *all* the samples of the
device, whatever they are, so a number above `end` is written behind the array;
the community driver stores byte lengths as sample numbers.

Main result: `getEmptySampleNo_findsFree_iff`.
-/

namespace BiometricAuth

/-! ### `bio_common_get_empty_sample_no` -/

/-- The sample numbers of a list of features, in the order of the two nested loops. -/
def sampleNos (infos : List FeatureInfo) : List ℤ :=
  (infos.flatMap FeatureInfo.samples).map FeatureSample.no

/-- `bio_common_get_empty_sample_no`; `none` when `end + 1` overflows, reading the
list crashes, or `sample_flag` is accessed outside of its bounds. -/
def bioCommonGetEmptySampleNo (uuidOf : ℤ → String) (db : EigenInfo) (dev : BioDev)
    (start endNo : ℤ) : Option ℤ := do
  let endNo := if endNo < start then start else endNo
  let size ← cInt (endNo + 1)
  let sampleFlag := (List.range size.toNat).map fun i : ℕ => decide ((i : ℤ) < start)
  let infos ← bioStoGetFeatureInfo uuidOf db (dev.query (-1) 0 (-1))
  let sampleFlag ← FlagTable.markAll sampleFlag (sampleNos infos)
  let found ← FlagTable.scan sampleFlag (endNo + 1 - start).toNat start
  return found.getD (-1)

/-- Before the list is looked at, the numbers below `start` are marked. -/
theorem marks_sampleFlag (start : ℤ) {size : ℤ} (hsize : 0 ≤ size) :
    FlagTable.Marks size {i | i < start}
      ((List.range size.toNat).map fun i : ℕ => decide ((i : ℤ) < start)) where
  length := by
    rw [List.length_map, List.length_range]
    omega
  flag i hi := by simp

/-! ### What it is documented to find -/

/-- The result asked for: all accesses are in bounds, and it is the least number of
the range that no listed sample has, or `-1` when all are taken. -/
def FindsFreeSampleNo (uuidOf : ℤ → String) (db : EigenInfo) (dev : BioDev) (start endNo : ℤ)
    (result : Option ℤ) : Prop :=
  ∃ infos no, bioStoGetFeatureInfo uuidOf db (dev.query (-1) 0 (-1)) = some infos ∧
    result = some no ∧
    (IsLeast {j | start ≤ j ∧ j ≤ max start endNo ∧ j ∉ sampleNos infos} no ∨
      no = -1 ∧ ∀ j, start ≤ j → j ≤ max start endNo → j ∈ sampleNos infos)

/-- **Free sample numbers.** The function finds the least free number, and stays inside
`sample_flag`, exactly when `end + 1` is an `int`, no feature of the device lacks its UUID,
and every sample number listed for the device lies in `[0, end]`. -/
theorem getEmptySampleNo_findsFree_iff (uuidOf : ℤ → String) (db : EigenInfo) (dev : BioDev)
    {start endNo : ℤ} (hstart : 0 ≤ start) :
    FindsFreeSampleNo uuidOf db dev start endNo
        (bioCommonGetEmptySampleNo uuidOf db dev start endNo) ↔
      max start endNo < 2 ^ 31 - 1 ∧
      (∀ r ∈ db.rows, (dev.query (-1) 0 (-1)).selects r = true → r.uuid ≠ none) ∧
      ∀ infos, bioStoGetFeatureInfo uuidOf db (dev.query (-1) 0 (-1)) = some infos →
        ∀ no ∈ sampleNos infos, 0 ≤ no ∧ no ≤ max start endNo := by
  have hmax : (if endNo < start then start else endNo) = max start endNo := by
    rw [max_def]
    split_ifs <;> omega
  have hle : start ≤ max start endNo := le_max_left _ _
  have hbio : 0 ≤ (dev.query (-1) 0 (-1)).biotype := dev.biotype.code_nonneg
  have hsize₀ : 0 ≤ max start endNo + 1 := by omega
  have hinit := marks_sampleFlag start hsize₀
  unfold bioCommonGetEmptySampleNo
  rw [hmax]
  constructor
  · -- a result shows that the size is an `int`, that the list was read, and that every number was
    -- marked
    rintro ⟨infos, no, hread, hno, -⟩
    obtain ⟨size, hsize, hno⟩ := Option.bind_eq_some_iff.mp hno
    obtain ⟨rfl, -, hint⟩ := eq_of_cInt hsize
    obtain ⟨infos₁, hread₁, hno⟩ := Option.bind_eq_some_iff.mp hno
    obtain rfl := Option.some.inj (hread.symm.trans hread₁)
    obtain ⟨flags, hflags, -⟩ := Option.bind_eq_some_iff.mp hno
    refine ⟨by omega, (exists_bioStoGetFeatureInfo_iff uuidOf hbio).mp ⟨infos, hread⟩, ?_⟩
    intro infos' hread'
    obtain rfl := Option.some.inj (hread'.symm.trans hread)
    cases hinit.markAll (sampleNos infos') with
    | inl hall =>
      intro no hmem
      obtain ⟨hlower, hupper⟩ := hall.1 no hmem
      exact ⟨hlower, Int.lt_add_one_iff.mp hupper⟩
    | inr hout => cases hflags.symm.trans hout.2
  · -- the size is an `int`, and the list is read
    rintro ⟨hint, huuid, hnos⟩
    obtain ⟨infos, hread⟩ := (exists_bioStoGetFeatureInfo_iff uuidOf hbio).mpr huuid
    have hnos := hnos infos hread
    have hsize : cInt (max start endNo + 1) = some (max start endNo + 1) :=
      cInt_eq_some ⟨by omega, by omega⟩
    cases hinit.markAll (sampleNos infos) with
    | inl hall =>
      obtain ⟨-, flags, hflags, hmarks⟩ := hall
      -- a number of the range is unmarked exactly if no sample has it
      have hunmarked : ∀ k, start ≤ k →
          (k ∈ ({i | i < start} ∪ {i | i ∈ sampleNos infos} : Set ℤ) ↔ k ∈ sampleNos infos) :=
        fun k hk => or_iff_right (not_lt.mpr hk)
      have hturns : start + ((max start endNo + 1 - start).toNat : ℤ) = max start endNo + 1 := by
        omega
      have hscan := hmarks.scan (max start endNo + 1 - start).toNat hstart hturns.le
      simp only [hsize, hread, hflags, Option.bind_eq_bind, Option.bind_some]
      rw [hturns] at hscan
      cases hscan with
      | inl hfound =>
        -- a number is free: the least one is found
        obtain ⟨no, hno, ⟨hno₁, hno₂, hfree⟩, hleast⟩ := hfound
        refine ⟨infos, no, hread, by rw [hno]; rfl, .inl ⟨⟨hno₁, by omega, ?_⟩, fun k hk => ?_⟩⟩
        · exact fun hused => hfree ((hunmarked no hno₁).mpr hused)
        · obtain ⟨hk₁, hk₂, hk₃⟩ := hk
          exact hleast ⟨hk₁, by omega, fun hused => hk₃ ((hunmarked k hk₁).mp hused)⟩
      | inr hfull =>
        -- none is free in the table, hence in the range
        obtain ⟨hno, hall⟩ := hfull
        refine ⟨infos, -1, hread, by rw [hno]; rfl, .inr ⟨rfl, fun k hk hend => ?_⟩⟩
        exact (hunmarked k hk).mp (hall k hk (by omega))
    | inr hout =>
      -- no number is outside of the table
      obtain ⟨⟨no, hmem, hbounds⟩, -⟩ := hout
      exact absurd ⟨(hnos no hmem).1, Int.lt_add_one_iff.mpr (hnos no hmem).2⟩ hbounds

/-- A sample of three bytes that the community driver has stored is marked behind an array
for the numbers up to `1`. -/
theorem not_findsFree_sampleNo : ¬ ∀ (uuidOf : ℤ → String) (db : EigenInfo) (dev : BioDev)
    (start endNo : ℤ), 0 ≤ start →
      FindsFreeSampleNo uuidOf db dev start endNo
        (bioCommonGetEmptySampleNo uuidOf db dev start endNo) := by
  intro h
  obtain ⟨infos, no, -, hno, -⟩ := h (fun _ => "u")
    (EigenInfo.empty.insert 1000 "u" 0 "uru4000" 0 "a" 3 [84, 76, 110, 78]) idleReader 0 1
    (le_refl 0)
  have hresult : bioCommonGetEmptySampleNo (fun _ => "u")
      (EigenInfo.empty.insert 1000 "u" 0 "uru4000" 0 "a" 3 [84, 76, 110, 78]) idleReader 0 1 =
        none := by decide
  cases hresult.symm.trans hno

/-- Up to `4` the number of that sample has its place, and `0` is free. -/
theorem findsFree_sampleNo_zero : FindsFreeSampleNo (fun _ => "u")
    (EigenInfo.empty.insert 1000 "u" 0 "uru4000" 0 "a" 3 [84, 76, 110, 78]) idleReader 0 4
    (bioCommonGetEmptySampleNo (fun _ => "u")
      (EigenInfo.empty.insert 1000 "u" 0 "uru4000" 0 "a" 3 [84, 76, 110, 78]) idleReader 0 4) := by
  refine (getEmptySampleNo_findsFree_iff _ _ _ (le_refl 0)).mpr ⟨by decide, by decide, ?_⟩
  intro infos hread
  have hlist : bioStoGetFeatureInfo (fun _ => "u")
      (EigenInfo.empty.insert 1000 "u" 0 "uru4000" 0 "a" 3 [84, 76, 110, 78])
      (idleReader.query (-1) 0 (-1)) =
        some [⟨1000, 0, "uru4000", 0, "a", [⟨1, 3, [84, 76, 110, 78]⟩]⟩] := by decide
  obtain rfl := Option.some.inj (hlist.symm.trans hread)
  decide

end BiometricAuth
