import BiometricAuth.Common.CInt
import BiometricAuth.Common.EmptyIndex

/-!
# What the search for a free index finds

`bio_common_get_empty_index` is documented to return a free index of the range
`[start, end]` it is given, `-1` for `end` meaning that there is no upper bound,
and `-1` when the whole range is taken. The daemon and the community driver call
it with `0` and `-1`; here the range is any.

The loop stops at the first gap *below a feature it meets*. After the loop only
`cmp`, the last difference, and `current_index`, the last index met, are left,
and they do not tell a full range from one whose free indices all lie above the
last feature. So the function finds the least free index (`FindsFreeIndex`) when

* a feature of the range lies above a free index of it, or
* the range is bounded and completely taken, or
* the range is unbounded, and it starts at `0` or a feature lies in it,

and otherwise reports a bounded range as taken, or takes `0` for the least index
of an unbounded one. On top of that `empty_index` and `current_index + 1` may
leave `int`, and the reader may crash.

Main result: `getEmptyIndex_findsFree_iff`.
-/

namespace BiometricAuth

/-! ### The function in the arithmetic of `int` -/

/-- The loop over the list, as `scanEmptyIndex`; `none` when `cmp` or
`empty_index++` overflows. -/
def scanEmptyIndexInt : List FeatureInfo → ℤ × ℤ × ℤ → Option (ℤ × ℤ × ℤ)
  | [], st => some st
  | info :: infos, (_, emptyIndex, _) => do
    let cmp ← cInt (info.index - emptyIndex)
    let emptyIndex ← if cmp = 0 then cInt (emptyIndex + 1) else some emptyIndex
    if 0 < cmp then some (cmp, emptyIndex, info.index)
    else scanEmptyIndexInt infos (cmp, emptyIndex, info.index)

/-- `bio_common_get_empty_index`, as `bioCommonGetEmptyIndex`; `none` also when
`int` arithmetic overflows. -/
def bioCommonGetEmptyIndexInt (uuidOf : ℤ → String) (db : EigenInfo) (dev : BioDev)
    (uid start endIdx : ℤ) : Option ℤ := do
  let endIdx := if endIdx ≠ -1 ∧ endIdx < start then start else endIdx
  let infos ← bioStoGetFeatureInfo uuidOf db (dev.query uid start endIdx)
  let (cmp, emptyIndex, currentIndex) ← scanEmptyIndexInt infos (0, start, -1)
  if 0 < cmp then some emptyIndex
  else if endIdx = -1 then cInt (currentIndex + 1)
  else some (-1)

/-- Where nothing overflows the loop is `scanEmptyIndex`. -/
theorem scanEmptyIndex_of_int {infos : List FeatureInfo} {st st' : ℤ × ℤ × ℤ}
    (h : scanEmptyIndexInt infos st = some st') : scanEmptyIndex infos st = st' := by
  induction infos generalizing st with
  | nil => exact Option.some.inj h
  | cons info infos ih =>
    obtain ⟨cmp, emptyIndex, cur⟩ := st
    unfold scanEmptyIndexInt at h
    unfold scanEmptyIndex
    obtain ⟨cmp', hcmp, h⟩ := Option.bind_eq_some_iff.mp h
    obtain ⟨rfl, -⟩ := eq_of_cInt hcmp
    by_cases heq : info.index - emptyIndex = 0
    · simp only [heq, if_true, lt_irrefl, if_false] at h ⊢
      obtain ⟨emptyIndex', hempty, h⟩ := Option.bind_eq_some_iff.mp h
      obtain ⟨rfl, -⟩ := eq_of_cInt hempty
      exact ih h
    · by_cases hgap : 0 < info.index - emptyIndex
      · simp only [heq, hgap, if_true, if_false] at h ⊢
        exact Option.some.inj h
      · simp only [heq, hgap, if_false] at h ⊢
        exact ih h

/-- Where nothing overflows the function is `bioCommonGetEmptyIndex`. -/
theorem bioCommonGetEmptyIndex_of_int {uuidOf : ℤ → String} {db : EigenInfo} {dev : BioDev}
    {uid start endIdx i : ℤ}
    (h : bioCommonGetEmptyIndexInt uuidOf db dev uid start endIdx = some i) :
    bioCommonGetEmptyIndex uuidOf db dev uid start endIdx = some i := by
  unfold bioCommonGetEmptyIndexInt at h
  unfold bioCommonGetEmptyIndex
  simp only [Option.bind_eq_bind, Option.bind_eq_some_iff] at h ⊢
  obtain ⟨infos, hread, ⟨cmp, emptyIndex, cur⟩, hscan, h⟩ := h
  refine ⟨infos, hread, ?_⟩
  rw [scanEmptyIndex_of_int hscan]
  -- what is left is `current_index + 1`
  simp only at h ⊢
  by_cases hcmp : 0 < cmp
  · rwa [if_pos hcmp] at h ⊢
  · rw [if_neg hcmp] at h ⊢
    generalize (if endIdx ≠ -1 ∧ endIdx < start then start else endIdx) = bound at h ⊢
    by_cases hbound : bound = -1
    · rw [if_pos hbound] at h ⊢
      rw [(eq_of_cInt h).1]
    · rwa [if_neg hbound] at h ⊢

section Scan

variable {infos : List FeatureInfo} {emptyIndex : ℤ}

theorem le_scanEmptyIndex (infos : List FeatureInfo) (cmp emptyIndex cur : ℤ) :
    emptyIndex ≤ (scanEmptyIndex infos (cmp, emptyIndex, cur)).2.1 := by
  induction infos generalizing cmp emptyIndex cur with
  | nil => exact le_refl _
  | cons info infos ih =>
    unfold scanEmptyIndex
    by_cases heq : info.index - emptyIndex = 0
    · have htail := ih 0 (emptyIndex + 1) info.index
      simp only [heq, if_true, lt_irrefl, if_false]
      omega
    · by_cases hgap : 0 < info.index - emptyIndex
      · simp only [heq, hgap, if_true, if_false]
        exact le_refl _
      · simp only [heq, hgap, if_false]
        exact ih (info.index - emptyIndex) emptyIndex info.index

/-- On a list of increasing indices from `empty_index` on, the only arithmetic
that can overflow is `empty_index++`, and it does when every `int` from there on
is taken. -/
theorem scanEmptyIndexInt_eq (hint : ∀ f ∈ infos, emptyIndex ≤ f.index ∧ IsCInt f.index)
    (hsorted : infos.Pairwise fun f g => f.index < g.index) (hpos : 0 ≤ emptyIndex)
    (hlt : emptyIndex < 2 ^ 31) (cmp cur : ℤ) :
    scanEmptyIndexInt infos (cmp, emptyIndex, cur) =
      if (scanEmptyIndex infos (cmp, emptyIndex, cur)).2.1 < 2 ^ 31 then
        some (scanEmptyIndex infos (cmp, emptyIndex, cur))
      else none := by
  induction infos generalizing emptyIndex cmp cur with
  | nil => exact (if_pos hlt).symm
  | cons info infos ih =>
    obtain ⟨hinfo, hsorted⟩ := List.pairwise_cons.mp hsorted
    obtain ⟨hle, -, hupper⟩ := hint info (by simp)
    have hcmp : IsCInt (info.index - emptyIndex) := ⟨by omega, by omega⟩
    unfold scanEmptyIndexInt scanEmptyIndex
    by_cases heq : info.index - emptyIndex = 0
    · have hzero : cInt 0 = some 0 := rfl
      simp only [heq, hzero, if_true, lt_irrefl, if_false, Option.bind_eq_bind,
        Option.bind_some]
      by_cases hmax : emptyIndex + 1 < 2 ^ 31
      · rw [cInt_eq_some ⟨by omega, hmax⟩, Option.bind_some]
        refine ih (fun f hf => ⟨?_, (hint f (by simp [hf])).2⟩) hsorted (by omega) hmax 0 info.index
        have := hinfo f hf
        omega
      · -- `INT_MAX` is taken
        rw [cInt_eq_none (by omega), Option.bind_none, if_neg]
        have := le_scanEmptyIndex infos 0 (emptyIndex + 1) info.index
        omega
    · have hgap : 0 < info.index - emptyIndex := by omega
      simp only [cInt_eq_some hcmp, heq, if_false, hgap, if_true, Option.bind_eq_bind,
        Option.bind_some, hlt]

/-- Nothing overflows on a list of non-negative indices that is short enough, in any order. -/
theorem exists_scanEmptyIndexInt (hint : ∀ f ∈ infos, 0 ≤ f.index ∧ IsCInt f.index)
    (hpos : 0 ≤ emptyIndex) (hshort : emptyIndex + infos.length < 2 ^ 31 - 1) {cmp cur : ℤ}
    (hcur : -1 ≤ cur) (hle : cmp ≤ 0 → cur ≤ emptyIndex) :
    ∃ cmp' emptyIndex' cur', scanEmptyIndexInt infos (cmp, emptyIndex, cur) =
        some (cmp', emptyIndex', cur') ∧
      emptyIndex' < 2 ^ 31 - 1 ∧ -1 ≤ cur' ∧ (cmp' ≤ 0 → cur' ≤ emptyIndex') := by
  induction infos generalizing emptyIndex cmp cur with
  | nil =>
    rw [List.length_nil] at hshort
    exact ⟨cmp, emptyIndex, cur, rfl, by omega, hcur, hle⟩
  | cons info infos ih =>
    rw [List.forall_mem_cons] at hint
    obtain ⟨⟨hinfo, -, hupper⟩, hint⟩ := hint
    rw [List.length_cons] at hshort
    push_cast at hshort
    -- both values are not negative, so the difference is an `int`
    have hcmp : cInt (info.index - emptyIndex) = some (info.index - emptyIndex) :=
      cInt_eq_some ⟨by omega, by omega⟩
    unfold scanEmptyIndexInt
    simp only [hcmp, Option.bind_eq_bind, Option.bind_some]
    by_cases heq : info.index - emptyIndex = 0
    · -- the index is taken, and the next one is tried
      rw [if_pos heq, cInt_eq_some ⟨by omega, by omega⟩, Option.bind_some, if_neg (by omega)]
      exact ih hint (by omega) (by omega) (by omega) fun _ => by omega
    · rw [if_neg heq]
      by_cases hgap : 0 < info.index - emptyIndex
      · -- the index is free, and the loop ends
        rw [if_pos hgap]
        exact ⟨_, _, _, rfl, by omega, by omega, fun hneg => absurd hgap (by omega)⟩
      · -- a smaller index is passed over
        rw [if_neg hgap]
        exact ih hint hpos (by omega) (by omega) fun _ => by omega

/-- The index the loop is at stays an `int`. -/
theorem scanEmptyIndexInt_isCInt {cmp cur cmp' emptyIndex' cur' : ℤ} (hint : IsCInt emptyIndex)
    (h : scanEmptyIndexInt infos (cmp, emptyIndex, cur) = some (cmp', emptyIndex', cur')) :
    IsCInt emptyIndex' := by
  induction infos generalizing emptyIndex cmp cur with
  | nil =>
    obtain ⟨-, rfl, -⟩ : cmp = cmp' ∧ emptyIndex = emptyIndex' ∧ cur = cur' := by
      simpa [scanEmptyIndexInt] using h
    exact hint
  | cons info infos ih =>
    unfold scanEmptyIndexInt at h
    obtain ⟨c, -, h⟩ := Option.bind_eq_some_iff.mp h
    by_cases hzero : c = 0
    · -- the index is taken, and the loop goes on with the next one
      simp only [hzero, if_true, lt_irrefl, if_false] at h
      obtain ⟨e, he, h⟩ := Option.bind_eq_some_iff.mp h
      obtain ⟨rfl, hnext⟩ := eq_of_cInt he
      exact ih hnext h
    · by_cases hgap : 0 < c
      · simp only [hzero, hgap, if_true, if_false] at h
        obtain ⟨-, rfl, -⟩ : c = cmp' ∧ emptyIndex = emptyIndex' ∧ info.index = cur' := by
          simpa using h
        exact hint
      · simp only [hzero, hgap, if_false] at h
        exact ih hint h

/-- In any order: a positive `cmp` means that a feature lies above the free index, otherwise
`current_index` is that of the last feature. -/
theorem scanEmptyIndexInt_last (hpos : 0 ≤ emptyIndex) {cmp cur cmp' emptyIndex' cur' : ℤ}
    (hcmp : cmp ≤ 0)
    (h : scanEmptyIndexInt infos (cmp, emptyIndex, cur) = some (cmp', emptyIndex', cur')) :
    0 ≤ emptyIndex' ∧ (0 < cmp' → ∃ f ∈ infos, emptyIndex' < f.index) ∧
      (cmp' ≤ 0 → cur' = (infos.getLast?.map FeatureInfo.index).getD cur) := by
  -- by induction on the features, for every state of the search
  induction infos generalizing emptyIndex cmp cur with
  | nil =>
    obtain ⟨rfl, rfl, rfl⟩ : cmp = cmp' ∧ emptyIndex = emptyIndex' ∧ cur = cur' := by
      simpa [scanEmptyIndexInt] using h
    exact ⟨hpos, fun hgap => absurd hgap (by omega), fun _ => rfl⟩
  | cons info infos ih =>
    -- what is left of a search that goes on
    have hon : ∀ {emptyIndex cmp : ℤ}, 0 ≤ emptyIndex → cmp ≤ 0 →
        scanEmptyIndexInt infos (cmp, emptyIndex, info.index) = some (cmp', emptyIndex', cur') →
        0 ≤ emptyIndex' ∧ (0 < cmp' → ∃ f ∈ info :: infos, emptyIndex' < f.index) ∧
          (cmp' ≤ 0 → cur' = ((info :: infos).getLast?.map FeatureInfo.index).getD cur) := by
      intro emptyIndex cmp hpos hcmp h
      obtain ⟨hempty, habove, hlast⟩ := ih hpos hcmp h
      refine ⟨hempty, fun hgap => ?_, fun hneg => ?_⟩
      · obtain ⟨f, hf, hlt⟩ := habove hgap
        exact ⟨f, List.mem_cons_of_mem _ hf, hlt⟩
      · rw [hlast hneg, List.getLast?_cons]
        cases infos.getLast? <;> rfl
    unfold scanEmptyIndexInt at h
    obtain ⟨c, hc, h⟩ := Option.bind_eq_some_iff.mp h
    obtain ⟨rfl, -⟩ := eq_of_cInt hc
    -- the index is taken: go on one further
    by_cases hzero : info.index - emptyIndex = 0
    · simp only [hzero, if_true, lt_irrefl, if_false] at h
      obtain ⟨e, he, h⟩ := Option.bind_eq_some_iff.mp h
      obtain ⟨rfl, -⟩ := eq_of_cInt he
      exact hon (by omega) (le_refl 0) h
    · -- a gap, at which the search stops
      by_cases hgap : 0 < info.index - emptyIndex
      · simp only [hzero, hgap, if_true, if_false] at h
        obtain ⟨rfl, rfl, -⟩ : info.index - emptyIndex = cmp' ∧ emptyIndex = emptyIndex' ∧
            info.index = cur' := by simpa using h
        exact ⟨hpos, fun _ => ⟨info, by simp, by omega⟩, fun hneg => absurd hgap (by omega)⟩
      · -- an index below the free one: go on
        simp only [hzero, hgap, if_false] at h
        exact hon hpos (by omega) h

/-- What the loop leaves in `cmp` and `current_index`: a positive `cmp` means that
a feature lies above the free index, otherwise all of them lie below. -/
theorem scanEmptyIndex_leftovers (hsorted : infos.Pairwise fun f g => f.index < g.index)
    (hge : ∀ f ∈ infos, emptyIndex ≤ f.index) {cmp cur cmp' emptyIndex' cur' : ℤ}
    (hcmp : cmp ≤ 0)
    (h : scanEmptyIndex infos (cmp, emptyIndex, cur) = (cmp', emptyIndex', cur')) :
    (0 < cmp' → ∃ f ∈ infos, emptyIndex' < f.index) ∧
    (cmp' ≤ 0 → ∀ f ∈ infos, f.index < emptyIndex') := by
  induction infos generalizing emptyIndex cmp cur with
  | nil =>
    obtain ⟨rfl, rfl, rfl⟩ : cmp = cmp' ∧ emptyIndex = emptyIndex' ∧ cur = cur' := by
      simpa [scanEmptyIndex] using h
    exact ⟨fun hpos => absurd hcmp (by omega), by simp⟩
  | cons info infos ih =>
    obtain ⟨hinfo, hsorted⟩ := List.pairwise_cons.mp hsorted
    -- no feature is below the index that is tried
    have hle := hge info (by simp)
    have hmono := le_scanEmptyIndex infos 0 (emptyIndex + 1) info.index
    unfold scanEmptyIndex at h
    by_cases heq : info.index - emptyIndex = 0
    · -- taken: what is left of the list lies above
      simp only [heq, if_true, lt_irrefl, if_false] at h
      rw [h] at hmono
      obtain ⟨habove, hbelow⟩ := ih hsorted
        (fun f hf => by have := hinfo f hf; omega) (le_refl 0) h
      refine ⟨fun hpos => ?_, fun hneg f hf => ?_⟩
      · obtain ⟨f, hf, hlt⟩ := habove hpos
        exact ⟨f, by simp [hf], hlt⟩
      · cases List.mem_cons.mp hf with
        | inl hf => subst hf; dsimp only at hmono; omega
        | inr hf => exact hbelow hneg f hf
    · -- free: the feature at hand lies above it, since nothing lies below
      have hgap : 0 < info.index - emptyIndex := by omega
      simp only [heq, if_false, hgap, if_true, Prod.mk.injEq] at h
      obtain ⟨rfl, rfl, rfl⟩ := h
      exact ⟨fun _ => ⟨info, by simp, by omega⟩, fun hneg => absurd hgap (by omega)⟩

/-- The first free index, and where `current_index` stands when no feature lies above
it: one below, or where it began. -/
theorem scanEmptyIndex_found (hsorted : infos.Pairwise fun f g => f.index < g.index)
    (hge : ∀ f ∈ infos, emptyIndex ≤ f.index) {cmp emptyIndex' cur : ℤ}
    (h : scanEmptyIndex infos (0, emptyIndex, -1) = (cmp, emptyIndex', cur)) :
    (∀ f ∈ infos, f.index ≠ emptyIndex') ∧
    (∀ i, emptyIndex ≤ i → i < emptyIndex' → ∃ f ∈ infos, f.index = i) ∧
    emptyIndex ≤ emptyIndex' ∧
    (cmp ≤ 0 → cur = if emptyIndex < emptyIndex' then emptyIndex' - 1 else -1) := by
  cases infos with
  | nil =>
    obtain ⟨rfl, rfl, rfl⟩ : 0 = cmp ∧ emptyIndex = emptyIndex' ∧ -1 = cur := by
      simpa [scanEmptyIndex] using h
    exact ⟨by simp, fun i h₁ h₂ => by omega, le_refl _, fun _ => (if_neg (lt_irrefl _)).symm⟩
  | cons info infos =>
    -- the first feature overwrites the initial `current_index`
    have hsame : scanEmptyIndex (info :: infos) (0, emptyIndex, emptyIndex - 1) =
        (cmp, emptyIndex', cur) := h
    obtain ⟨hne, htaken, hle, hlast⟩ := scanEmptyIndex_spec hsorted hge (le_refl 0) rfl hsame
    refine ⟨hne, htaken, hle, fun hcmp => ?_⟩
    have hfirst := (scanEmptyIndex_leftovers hsorted hge (le_refl 0) h).2 hcmp info
      List.mem_cons_self
    rw [hlast hcmp, if_pos (lt_of_le_of_lt (hge info List.mem_cons_self) hfirst)]

end Scan

/-! ### What it is documented to find -/

/-- The documented result: the least free index of the range, or `-1` when the
whole range is taken. -/
def FindsFreeIndex (uuidOf : ℤ → String) (db : EigenInfo) (dev : BioDev) (uid start endIdx : ℤ)
    (result : Option ℤ) : Prop :=
  ∃ i, result = some i ∧
    (IsLeast {j | InIndexRange start endIdx j ∧ ¬ UsedIndex uuidOf db dev uid j} i ∨
      i = -1 ∧ ∀ j, InIndexRange start endIdx j → UsedIndex uuidOf db dev uid j)

/-- The situations the leftovers of the loop tell apart: a free index below a
taken one, a full bounded range that ends below `INT_MAX`, and an unbounded range
that starts at `0` or has a taken index in it, and has a free `int`. -/
def FreeIndexShows (uuidOf : ℤ → String) (db : EigenInfo) (dev : BioDev)
    (uid start endIdx : ℤ) : Prop :=
  (∃ i j, InIndexRange start endIdx i ∧ InIndexRange start endIdx j ∧ i < j ∧
    ¬ UsedIndex uuidOf db dev uid i ∧ UsedIndex uuidOf db dev uid j) ∨
  (endIdx ≠ -1 ∧ endIdx < 2 ^ 31 - 1 ∧
    ∀ j, InIndexRange start endIdx j → UsedIndex uuidOf db dev uid j) ∨
  (endIdx = -1 ∧ (start = 0 ∨ ∃ j, start ≤ j ∧ UsedIndex uuidOf db dev uid j) ∧
    ∃ i, start ≤ i ∧ i < 2 ^ 31 ∧ ¬ UsedIndex uuidOf db dev uid i)

section Range

variable {uuidOf : ℤ → String} {db : EigenInfo} {dev : BioDev} {uid start endIdx : ℤ}

/-- What the search returns is an `int`. -/
theorem isCInt_of_bioCommonGetEmptyIndexInt {i : ℤ} (hstart : IsCInt start)
    (h : bioCommonGetEmptyIndexInt uuidOf db dev uid start endIdx = some i) : IsCInt i := by
  obtain ⟨infos, -, h⟩ := Option.bind_eq_some_iff.mp h
  obtain ⟨⟨cmp, emptyIndex, cur⟩, hscan, h⟩ := Option.bind_eq_some_iff.mp h
  by_cases hcmp : 0 < cmp
  · obtain rfl := Option.some.inj ((if_pos hcmp).symm.trans h)
    exact scanEmptyIndexInt_isCInt hstart hscan
  · have h := (if_neg hcmp).symm.trans h
    generalize (if endIdx ≠ -1 ∧ endIdx < start then start else endIdx) = bound at h
    by_cases hbound : bound = -1
    · obtain ⟨rfl, hnext⟩ := eq_of_cInt ((if_pos hbound).symm.trans h)
      exact hnext
    · obtain rfl := Option.some.inj ((if_neg hbound).symm.trans h)
      decide

/-- The search of an enroll ends on a short list of non-negative indices, in any
order. -/
theorem exists_bioCommonGetEmptyIndexInt {infos : List FeatureInfo}
    (hread : bioStoGetFeatureInfo uuidOf db (dev.query uid 0 (-1)) = some infos)
    (hint : ∀ f ∈ infos, 0 ≤ f.index ∧ IsCInt f.index) (hshort : infos.length < 2 ^ 31 - 1) :
    ∃ i, bioCommonGetEmptyIndexInt uuidOf db dev uid 0 (-1) = some i := by
  obtain ⟨cmp, emptyIndex, cur, hscan, hupper, hlower, hle⟩ :=
    @exists_scanEmptyIndexInt infos 0 hint (le_refl 0) (by omega) 0 (-1) (le_refl _)
      fun _ => by decide
  have hend : (if (-1 : ℤ) ≠ -1 ∧ (-1 : ℤ) < 0 then (0 : ℤ) else -1) = -1 := by decide
  simp only [bioCommonGetEmptyIndexInt, hend, hread, hscan, Option.bind_eq_bind, Option.bind_some,
    if_true]
  by_cases hcmp : 0 < cmp
  · exact ⟨emptyIndex, if_pos hcmp⟩
  · have hle := hle (by omega)
    exact ⟨cur + 1, (if_neg hcmp).trans (cInt_eq_some ⟨by omega, by omega⟩)⟩

/-- What the search returns: `e` is the first free index from `start` on. Below a feature of the
range it is the result, otherwise the bound and the place of `e` decide. -/
theorem bioCommonGetEmptyIndexInt_cases (hindex : ∀ r ∈ db.rows, IsCInt r.eigenIndex)
    (huid : uid ≠ -1) (hstart : 0 ≤ start) (hstart' : start < 2 ^ 31)
    (hend : endIdx = -1 ∨ start ≤ endIdx)
    (huuid : ∀ r ∈ db.rows, (dev.query uid start endIdx).selects r = true → r.uuid ≠ none) :
    ∃ e, start ≤ e ∧
      (InIndexRange start endIdx e → ¬ UsedIndex uuidOf db dev uid e) ∧
      (∀ i, start ≤ i → i < e → InIndexRange start endIdx i ∧ UsedIndex uuidOf db dev uid i) ∧
      ((∃ j, e < j ∧ InIndexRange start endIdx j ∧ UsedIndex uuidOf db dev uid j) ∧
          bioCommonGetEmptyIndexInt uuidOf db dev uid start endIdx = some e ∨
        (∀ j, InIndexRange start endIdx j → UsedIndex uuidOf db dev uid j → j < e) ∧
          bioCommonGetEmptyIndexInt uuidOf db dev uid start endIdx =
            if e < 2 ^ 31 then
              some (if endIdx ≠ -1 then -1 else if start < e then e else 0)
            else none) := by
  have hints : ∀ i, UsedIndex uuidOf db dev uid i → IsCInt i := by
    rintro i ⟨r, hr, -, -, -, -, rfl⟩
    exact hindex r hr
  -- the list that is searched
  obtain ⟨infos, hread, hsorted, hlisted⟩ := exists_list_of_range uuidOf dev huid hints huuid
  have hrange : ∀ f ∈ infos, InIndexRange start endIdx f.index ∧
      UsedIndex uuidOf db dev uid f.index := fun f hf => (hlisted f.index).mp ⟨f, hf, rfl⟩
  have hint : ∀ f ∈ infos, start ≤ f.index ∧ IsCInt f.index := by
    intro f hf
    obtain ⟨hin, r, hr, -, -, -, -, hri⟩ := hrange f hf
    exact ⟨hin.1, hri ▸ hindex r hr⟩
  have hge : ∀ f ∈ infos, start ≤ f.index := fun f hf => (hint f hf).1
  have hend' : ¬ (endIdx ≠ -1 ∧ endIdx < start) := by omega
  -- what the scan finds, and what that says of the list
  rcases hscan : scanEmptyIndex infos (0, start, -1) with ⟨cmp, e, cur⟩
  obtain ⟨habove, hbelow⟩ := scanEmptyIndex_leftovers hsorted hge (le_refl 0) hscan
  obtain ⟨hfree, htaken, hle, hcur⟩ := scanEmptyIndex_found hsorted hge hscan
  refine ⟨e, hle, fun hin hused => ?_, fun i hi hie => ?_, ?_⟩
  · obtain ⟨f, hf, hfe⟩ := (hlisted e).mpr ⟨hin, hused⟩
    exact hfree f hf hfe
  · obtain ⟨f, hf, hfi⟩ := htaken i hi hie
    exact hfi ▸ hrange f hf
  -- the `int`s only matter where the free index is none
  have hresult : bioCommonGetEmptyIndexInt uuidOf db dev uid start endIdx =
      if e < 2 ^ 31 then
        if 0 < cmp then some e else if endIdx = -1 then cInt (cur + 1) else some (-1)
      else none := by
    rw [bioCommonGetEmptyIndexInt, if_neg hend', hread]
    simp only [Option.bind_eq_bind, Option.bind_some]
    rw [scanEmptyIndexInt_eq hint hsorted hstart hstart', hscan]
    split
    · rfl
    · rfl
  rw [hresult]
  -- a feature lies above the free index
  by_cases hcmp : 0 < cmp
  · obtain ⟨f, hf, hef⟩ := habove hcmp
    have hlt : e < 2 ^ 31 := hef.trans (hint f hf).2.2
    refine .inl ⟨⟨f.index, hef, hrange f hf⟩, ?_⟩
    rw [if_pos hlt, if_pos hcmp]
  · -- no feature lies above it: the end of the range decides
    refine .inr ⟨fun j hin hused => ?_, ?_⟩
    · obtain ⟨f, hf, rfl⟩ := (hlisted j).mpr ⟨hin, hused⟩
      exact hbelow (not_lt.mp hcmp) f hf
    · by_cases hlt : e < 2 ^ 31
      · rw [if_pos hlt, if_pos hlt, if_neg hcmp, hcur (not_lt.mp hcmp)]
        by_cases hbound : endIdx = -1
        · -- without a bound the answer is one past the last index, or `0` without any
          rw [if_pos hbound, if_neg (not_not.mpr hbound)]
          split
          · rw [Int.sub_add_cancel, cInt_eq_some ⟨by omega, hlt⟩]
          · rfl
        · rw [if_neg hbound, if_pos hbound]
      · rw [if_neg hlt, if_neg hlt]

/-- Without a row that lacks its UUID, the search of an enroll comes to the first free index, and
returns it if it is an `int`. -/
theorem bioCommonGetEmptyIndexInt_eq (hindex : ∀ r ∈ db.rows, IsCInt r.eigenIndex)
    (huid : uid ≠ -1)
    (huuid : ∀ r ∈ db.rows, (dev.query uid 0 (-1)).selects r = true → r.uuid ≠ none) :
    ∃ e, IsLeast {i | 0 ≤ i ∧ ¬ UsedIndex uuidOf db dev uid i} e ∧
      bioCommonGetEmptyIndexInt uuidOf db dev uid 0 (-1) = if e < 2 ^ 31 then some e else none := by
  obtain ⟨e, hle, hfree, htaken, hresult⟩ :=
    bioCommonGetEmptyIndexInt_cases hindex huid (le_refl 0) (by norm_num) (.inl rfl) huuid
  refine ⟨e, ⟨⟨hle, hfree ⟨hle, .inl rfl⟩⟩, fun i hi => ?_⟩, ?_⟩
  · by_contra hlt
    exact hi.2 (htaken i hi.1 (not_le.mp hlt)).2
  · rcases hresult with ⟨⟨j, hej, -, r, hr, -, -, -, -, rfl⟩, hresult⟩ | ⟨-, hresult⟩
    · -- a feature lies above, and its index is an `int`
      rw [hresult, if_pos (hej.trans (hindex r hr).2)]
    · have hvalue : (if (-1 : ℤ) ≠ -1 then -1 else if 0 < e then e else 0) = e := by
        rw [if_neg (not_not.mpr rfl)]
        split <;> omega
      rw [hresult, hvalue]

/-- What an enroll is given is the least free index, and an `int`. -/
theorem isLeast_of_bioCommonGetEmptyIndexInt {i : ℤ} (hindex : ∀ r ∈ db.rows, IsCInt r.eigenIndex)
    (huid : uid ≠ -1) (h : bioCommonGetEmptyIndexInt uuidOf db dev uid 0 (-1) = some i) :
    IsCInt i ∧ IsLeast {i | 0 ≤ i ∧ ¬ UsedIndex uuidOf db dev uid i} i := by
  obtain ⟨infos, hread, -⟩ := Option.bind_eq_some_iff.mp h
  obtain ⟨e, hleast, heq⟩ := bioCommonGetEmptyIndexInt_eq hindex huid
    ((exists_bioStoGetFeatureInfo_iff uuidOf dev.biotype.code_nonneg).mp ⟨infos, hread⟩)
  obtain ⟨hlt, rfl⟩ : e < 2 ^ 31 ∧ e = i := by
    rw [h] at heq
    simpa [eq_comm] using heq
  have hpos : 0 ≤ e := hleast.1.1
  exact ⟨⟨by omega, hlt⟩, hleast⟩

/-- An enroll is given an index while there is a free one of type `int`. -/
theorem bioCommonGetEmptyIndexInt_isLeast (hindex : ∀ r ∈ db.rows, IsCInt r.eigenIndex)
    (huuid : ∀ r ∈ db.rows, r.uuid ≠ none) (huid : uid ≠ -1)
    (hfree : ∃ i, 0 ≤ i ∧ IsCInt i ∧ ¬ UsedIndex uuidOf db dev uid i) :
    ∃ i, bioCommonGetEmptyIndexInt uuidOf db dev uid 0 (-1) = some i ∧
      IsLeast {i | 0 ≤ i ∧ ¬ UsedIndex uuidOf db dev uid i} i := by
  obtain ⟨e, hleast, heq⟩ := @bioCommonGetEmptyIndexInt_eq uuidOf db dev uid hindex huid
    fun r hr _ => huuid r hr
  obtain ⟨i, hi, hint, hnot⟩ := hfree
  have hlt : e < 2 ^ 31 := (hleast.2 ⟨hi, hnot⟩).trans_lt hint.2
  exact ⟨e, by rw [heq, if_pos hlt], hleast⟩

/-- The first free index from `start` on; what lies below it belongs to the range. -/
structure IsFirstFree (uuidOf : ℤ → String) (db : EigenInfo) (dev : BioDev)
    (uid start endIdx e : ℤ) : Prop where
  le : start ≤ e
  free : InIndexRange start endIdx e → ¬ UsedIndex uuidOf db dev uid e
  taken : ∀ i, start ≤ i → i < e → InIndexRange start endIdx i ∧ UsedIndex uuidOf db dev uid i

/-- It is the least one if the range has it. -/
theorem IsFirstFree.isLeast {e : ℤ} (h : IsFirstFree uuidOf db dev uid start endIdx e)
    (hin : InIndexRange start endIdx e) :
    IsLeast {j | InIndexRange start endIdx j ∧ ¬ UsedIndex uuidOf db dev uid j} e := by
  refine ⟨⟨hin, h.free hin⟩, fun i hi => ?_⟩
  by_contra hlt
  exact hi.2 (h.taken i hi.1.1 (not_le.mp hlt)).2

/-- The range ends nowhere, and all its features lie below `e`: `0` stands for an empty range as
well as for the index. -/
theorem findsFree_unbounded_iff {e : ℤ} (h : IsFirstFree uuidOf db dev uid start endIdx e)
    (hstart : 0 ≤ start) (hbound : endIdx = -1)
    (hbelow : ∀ j, InIndexRange start endIdx j → UsedIndex uuidOf db dev uid j → j < e) :
    FindsFreeIndex uuidOf db dev uid start endIdx
        (if e < 2 ^ 31 then some (if start < e then e else 0) else none) ↔
      (start = 0 ∨ ∃ j, start ≤ j ∧ UsedIndex uuidOf db dev uid j) ∧
        ∃ i, start ≤ i ∧ i < 2 ^ 31 ∧ ¬ UsedIndex uuidOf db dev uid i := by
  have hin : ∀ j, start ≤ j → InIndexRange start endIdx j := fun j hj => ⟨hj, .inl hbound⟩
  -- an index of the range is in use exactly if the first free one lies behind `start`
  have hany : (∃ j, start ≤ j ∧ UsedIndex uuidOf db dev uid j) ↔ start < e := by
    constructor
    · rintro ⟨j, hj, hused⟩
      exact lt_of_le_of_lt hj (hbelow j (hin j hj) hused)
    · exact fun hlt => ⟨start, le_refl _, (h.taken start (le_refl _) hlt).2⟩
  -- an index is free below `2 ^ 31` exactly if the first free one lies there
  have hsmall : (∃ i, start ≤ i ∧ i < 2 ^ 31 ∧ ¬ UsedIndex uuidOf db dev uid i) ↔ e < 2 ^ 31 := by
    constructor
    · rintro ⟨i, hi, hlt, hnot⟩
      by_contra hmax
      exact hnot (h.taken i hi (by omega)).2
    · exact fun hlt => ⟨e, h.le, hlt, h.free (hin e h.le)⟩
  rw [hany, hsmall]
  by_cases hmax : e < 2 ^ 31
  · rw [if_pos hmax, and_iff_left hmax]
    constructor
    · rintro ⟨i, hi, hleast | ⟨-, hall⟩⟩
      · -- the result is an index from `start` on, so it is not the `0` of an empty range
        by_contra hnone
        have hstart₀ : start ≤ i := hleast.1.1.1
        rw [if_neg fun hlt => hnone (.inr hlt)] at hi
        have := Option.some.inj hi
        omega
      · exact absurd (hall e (hin e h.le)) (h.free (hin e h.le))
    · -- the result is the first free index
      intro hshows
      have hvalue : (if start < e then e else 0) = e := by
        have hle := h.le
        split
        · rfl
        · omega
      rw [hvalue]
      exact ⟨e, rfl, .inl (h.isLeast (hin e h.le))⟩
  · -- every `int` from `start` on is taken, and the search overflows
    rw [if_neg hmax]
    refine iff_of_false ?_ fun h => hmax h.2
    rintro ⟨i, hi, -⟩
    cases hi

/-- The range ends at `endIdx`, and all its features lie below `e`: the search answers that it is
full. -/
theorem findsFree_bounded_iff {e : ℤ} (h : IsFirstFree uuidOf db dev uid start endIdx e)
    (hstart : 0 ≤ start) (hend : start ≤ endIdx) (hbound : endIdx ≠ -1)
    (hbelow : ∀ j, InIndexRange start endIdx j → UsedIndex uuidOf db dev uid j → j < e) :
    FindsFreeIndex uuidOf db dev uid start endIdx (if e < 2 ^ 31 then some (-1) else none) ↔
      endIdx < 2 ^ 31 - 1 ∧
        ∀ j, InIndexRange start endIdx j → UsedIndex uuidOf db dev uid j := by
  have hle := h.le
  -- the range is full exactly if the first free index lies behind it
  have hall : (∀ j, InIndexRange start endIdx j → UsedIndex uuidOf db dev uid j) ↔
      endIdx < e := by
    constructor
    · intro hall
      have hin : InIndexRange start endIdx endIdx := ⟨hend, .inr (le_refl _)⟩
      exact hbelow endIdx hin (hall endIdx hin)
    · intro hlt j hj
      have := hj.2.resolve_left hbound
      exact (h.taken j hj.1 (by omega)).2
  rw [FindsFreeIndex, hall]
  by_cases hmax : e < 2 ^ 31
  · rw [if_pos hmax]
    -- the result is `-1`, which is no index of the range
    constructor
    · rintro ⟨i, hi, hleast | ⟨-, hlt⟩⟩
      · have hstart₀ : start ≤ i := hleast.1.1.1
        have := Option.some.inj hi
        omega
      · exact ⟨by omega, hlt⟩
    · exact fun h => ⟨-1, rfl, .inr ⟨rfl, h.2⟩⟩
  · -- every `int` from `start` on is taken
    rw [if_neg hmax]
    refine iff_of_false ?_ fun hfull => ?_
    · rintro ⟨i, hi, -⟩
      cases hi
    · have hlast := (h.taken (e - 1) (by omega) (by omega)).1.2.resolve_left hbound
      omega

end Range

/-- **Free indices.** The search finds the least free index of the range, or that there is
none, exactly when no feature it reads lacks its UUID and what the loop leaves shows it. -/
theorem getEmptyIndex_findsFree_iff (uuidOf : ℤ → String) (db : EigenInfo) (dev : BioDev)
    {uid start endIdx : ℤ} (hindex : ∀ r ∈ db.rows, IsCInt r.eigenIndex) (huid : 0 ≤ uid)
    (hstart : 0 ≤ start) (hstart' : IsCInt start) (hend : endIdx = -1 ∨ start ≤ endIdx) :
    FindsFreeIndex uuidOf db dev uid start endIdx
        (bioCommonGetEmptyIndexInt uuidOf db dev uid start endIdx) ↔
      (∀ r ∈ db.rows, (dev.query uid start endIdx).selects r = true → r.uuid ≠ none) ∧
      FreeIndexShows uuidOf db dev uid start endIdx := by
  have huid' : uid ≠ -1 := by omega
  have hend' : ¬ (endIdx ≠ -1 ∧ endIdx < start) := by omega
  by_cases huuid : ∀ r ∈ db.rows, (dev.query uid start endIdx).selects r = true → r.uuid ≠ none
  swap
  · -- the reader crashes
    refine iff_of_false ?_ fun h => huuid h.1
    rintro ⟨i, hi, -⟩
    refine huuid ((exists_bioStoGetFeatureInfo_iff uuidOf dev.biotype.code_nonneg).mp ?_)
    rw [bioCommonGetEmptyIndexInt, if_neg hend'] at hi
    obtain ⟨infos, hread, -⟩ := Option.bind_eq_some_iff.mp hi
    exact ⟨infos, hread⟩
  rw [and_iff_right huuid]
  obtain ⟨e, hle, hfree, htaken, ⟨⟨j, hej, hj, hused⟩, hresult⟩ | ⟨hbelow, hresult⟩⟩ :=
    bioCommonGetEmptyIndexInt_cases hindex huid' hstart hstart'.2 hend huuid
  · -- a gap below a feature
    have hfirst : IsFirstFree uuidOf db dev uid start endIdx e := ⟨hle, hfree, htaken⟩
    have hin : InIndexRange start endIdx e := ⟨hle, hj.2.imp_right fun h => by omega⟩
    exact iff_of_true ⟨e, hresult, .inl (hfirst.isLeast hin)⟩
      (.inl ⟨e, j, hin, hj, hej, hfree hin, hused⟩)
  -- all features of the range lie below the first free index
  have hfirst : IsFirstFree uuidOf db dev uid start endIdx e := ⟨hle, hfree, htaken⟩
  have hnogap : ¬ ∃ i j, InIndexRange start endIdx i ∧ InIndexRange start endIdx j ∧ i < j ∧
      ¬ UsedIndex uuidOf db dev uid i ∧ UsedIndex uuidOf db dev uid j := by
    rintro ⟨i, j, hi, hj, hij, hnot, hused⟩
    exact hnot (htaken i hi.1 (hij.trans (hbelow j hj hused))).2
  rw [hresult, FreeIndexShows, or_iff_right hnogap]
  -- the end of the range decides how the search answers
  by_cases hbound : endIdx = -1
  · rw [or_iff_right fun h => h.1 hbound, and_iff_right hbound, if_neg (not_not.mpr hbound)]
    exact findsFree_unbounded_iff hfirst hstart hbound hbelow
  · rw [or_iff_left fun h => hbound h.1, and_iff_right hbound, if_pos hbound]
    exact findsFree_bounded_iff hfirst hstart (hend.resolve_left hbound) hbound hbelow

/-- Nobody has a feature, and no index of the range `[0, 5]` is found. -/
theorem not_findsFree_bounded : ¬ ∀ (uuidOf : ℤ → String) (db : EigenInfo) (dev : BioDev)
    (uid start endIdx : ℤ), (∀ r ∈ db.rows, IsCInt r.eigenIndex) → 0 ≤ uid → 0 ≤ start →
      IsCInt start → (endIdx = -1 ∨ start ≤ endIdx) →
      FindsFreeIndex uuidOf db dev uid start endIdx
        (bioCommonGetEmptyIndexInt uuidOf db dev uid start endIdx) := by
  intro h
  obtain ⟨i, hi, hfound⟩ := h (fun _ => "") EigenInfo.empty idleReader 1000 0 5 (by simp)
    (by decide) (by decide) (by decide) (by decide)
  have hresult : bioCommonGetEmptyIndexInt (fun _ => "") EigenInfo.empty idleReader 1000 0 5 =
      some (-1) := by decide
  obtain rfl := Option.some.inj (hresult.symm.trans hi)
  rcases hfound with hleast | ⟨-, hall⟩
  · exact absurd hleast.1.1.1 (by decide)
  · obtain ⟨r, hr, -⟩ := hall 0 ⟨le_refl 0, .inr (by decide)⟩
    exact absurd hr (List.not_mem_nil)

/-- Index `1` is the first one free below index `2`. -/
theorem findsFree_gap : FindsFreeIndex (fun _ => "u")
    ((EigenInfo.empty.insert 1000 "u" 0 "uru4000" 0 "a" 1 []).insert 1000 "u" 0 "uru4000" 2 "b" 1
      []) idleReader 1000 0 (-1) (bioCommonGetEmptyIndexInt (fun _ => "u")
      ((EigenInfo.empty.insert 1000 "u" 0 "uru4000" 0 "a" 1 []).insert 1000 "u" 0 "uru4000" 2 "b" 1
        []) idleReader 1000 0 (-1)) := by
  refine (getEmptyIndex_findsFree_iff (fun _ => "u") _ idleReader (by decide) (by decide)
    (by decide) (by decide) (.inl rfl)).mpr ⟨by decide, .inl ⟨1, 2, ?_⟩⟩
  refine ⟨⟨by decide, .inl rfl⟩, ⟨by decide, .inl rfl⟩, by decide, ?_, ?_⟩
  · rintro ⟨r, hr, -, -, -, -, hindex⟩
    revert hindex
    revert r
    decide
  · exact ⟨_, List.mem_append_right _ (List.mem_singleton_self _), by decide, rfl, rfl, rfl, rfl⟩

end BiometricAuth
