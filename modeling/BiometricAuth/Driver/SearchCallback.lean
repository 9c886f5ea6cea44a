import BiometricAuth.Driver.Budget

/-!
# The match callback of search

`on_match_cb_search` walks over the samples of the features it has read, decodes
each into two buffers of its own and compares it with the matched print. A sample
that is equal goes behind `found`.

`searchWalk` is that walk with its buffers: a `Ledger` counts how often each of them
was freed. After a sample that is not equal the walk frees `template_data` a
second time if the feature has another sample, which it passes over; the driver
crashes there, and `searchSamples_eq` says that `World.searchSamples` is the walk
without these runs. `stored_data` is set to `NULL` before its buffer is freed, so
that buffer stays allocated.

* `searchInfos_eq_appendAll` — a callback that does not crash appends the equal samples;
* `examinesEverySample_iff` — and it frees each of its buffers once only if there are none.
-/

namespace BiometricAuth

open World

/-! ### Buffers -/

/-- How often each buffer was freed, in the order of their allocation. -/
abbrev Ledger := List ℕ

namespace Ledger

/-- `free` of the `i`th buffer; `none` is `NULL`, which `free` ignores. -/
def free (ledger : Ledger) : Option ℕ → Ledger
  | none => ledger
  | some i => ledger.modify i (· + 1)

/-- No buffer was freed twice. -/
def Sound (ledger : Ledger) : Prop := ∀ n ∈ ledger, n ≤ 1

instance (ledger : Ledger) : Decidable ledger.Sound :=
  inferInstanceAs (Decidable (∀ n ∈ ledger, n ≤ 1))

@[simp] theorem free_none (ledger : Ledger) : ledger.free none = ledger := rfl

/-- The buffer allocated last but one. -/
theorem free_append (ledger : Ledger) (m n : ℕ) :
    free (ledger ++ [m, n]) (some ledger.length) = ledger ++ [m + 1, n] := by
  simp [free, List.modify_eq_take_cons_drop]

theorem sound_append {ledger ledger' : Ledger} :
    Sound (ledger ++ ledger') ↔ ledger.Sound ∧ ledger'.Sound := by
  simp only [Sound, List.mem_append, or_imp, forall_and]

end Ledger

/-! ### The walk -/

/-- The state of the walk. -/
structure SearchWalk where
  data : SearchData
  /-- The buffers of `buf_alloc`. -/
  ledger : Ledger
  /-- `stored_data`; `none` is `NULL`. -/
  storedData : Option ℕ
deriving DecidableEq, Repr

/-- The walk over the samples of a feature. -/
def searchWalkSamples {π : Type} (fp : Libfprint π) (key : Bytes) (print : π)
    (info : FeatureInfo) : List FeatureSample → SearchWalk → Option SearchWalk
  | [], s => some s
  | sample :: samples, s => do
    let temp := s.storedData
    let templateData := s.ledger.length
    let ledger := s.ledger ++ [0, 0]
    if ← sampleEqual fp key print sample then
      let data ← SearchData.append s.data info sample
      searchWalkSamples fp key print info samples
        { data, ledger := (ledger.free temp).free templateData, storedData := none }
    else
      let s := { s with ledger := (ledger.free temp).free templateData, storedData := none }
      match samples with
      | [] => some s
      | _ :: samples =>
        -- `temp` is `NULL` by now, `template_data` is not
        searchWalkSamples fp key print info samples
          { s with ledger := s.ledger.free templateData }

/-- The walk over the features. -/
def searchWalk {π : Type} (fp : Libfprint π) (key : Bytes) (print : π)
    (infos : List FeatureInfo) (s : SearchWalk) : Option SearchWalk :=
  infos.foldlM (fun s info => searchWalkSamples fp key print info info.samples s) s

/-- The walk before its first sample. -/
def SearchWalk.start (data : SearchData) : SearchWalk :=
  { data, ledger := [], storedData := none }

section SearchCallback

variable {π : Type} {fp : Libfprint π} {key : Bytes} {print : π}

/-- A sample that is equal. -/
theorem searchWalkSamples_equal {info : FeatureInfo} {sample : FeatureSample}
    {samples : List FeatureSample} {data : SearchData} {ledger : Ledger}
    (hequal : sampleEqual fp key print sample = some true) :
    searchWalkSamples fp key print info (sample :: samples) ⟨data, ledger, none⟩ =
      (SearchData.append data info sample).bind fun data =>
        searchWalkSamples fp key print info samples ⟨data, ledger ++ [1, 0], none⟩ := by
  simp only [searchWalkSamples, hequal, Ledger.free_none, Ledger.free_append]
  rfl

/-- One that is not, at the end of the list. -/
theorem searchWalkSamples_last {info : FeatureInfo} {sample : FeatureSample}
    {data : SearchData} {ledger : Ledger}
    (hequal : sampleEqual fp key print sample = some false) :
    searchWalkSamples fp key print info [sample] ⟨data, ledger, none⟩ =
      some ⟨data, ledger ++ [1, 0], none⟩ := by
  simp only [searchWalkSamples, hequal, Ledger.free_none, Ledger.free_append]
  rfl

/-- One that is not, in front of another, which is passed over. -/
theorem searchWalkSamples_skip {info : FeatureInfo} {sample next : FeatureSample}
    {samples : List FeatureSample} {data : SearchData} {ledger : Ledger}
    (hequal : sampleEqual fp key print sample = some false) :
    searchWalkSamples fp key print info (sample :: next :: samples) ⟨data, ledger, none⟩ =
      searchWalkSamples fp key print info samples ⟨data, ledger ++ [2, 0], none⟩ := by
  simp only [searchWalkSamples, hequal, Ledger.free_none, Ledger.free_append]
  rfl

/-- The ledger of a walk: two buffers for each sample it came to, of which the second is not
freed. -/
theorem searchWalkSamples_ledger {info : FeatureInfo} {samples : List FeatureSample}
    {data : SearchData} {ledger : Ledger} {s' : SearchWalk}
    (h : searchWalkSamples fp key print info samples ⟨data, ledger, none⟩ = some s') :
    s'.storedData = none ∧ ∃ frees : List ℕ,
      s'.ledger = ledger ++ frees.flatMap (fun n => [n, 0]) ∧ (frees = [] ↔ samples = []) := by
  -- by induction on the samples, two at a time, as an unequal one takes the one behind it along
  induction samples using List.twoStepInduction generalizing data ledger with
  | nil =>
    obtain rfl := Option.some.inj h
    exact ⟨rfl, [], by simp⟩
  | singleton sample =>
    -- the last sample frees its buffer once, equal or not
    cases hequal : sampleEqual fp key print sample with
    | none => simp [searchWalkSamples, hequal] at h
    | some equal =>
      cases equal with
      | true =>
        rw [searchWalkSamples_equal hequal] at h
        obtain ⟨data', -, h⟩ := Option.bind_eq_some_iff.mp h
        obtain rfl := Option.some.inj h
        exact ⟨rfl, [1], by simp⟩
      | false =>
        rw [searchWalkSamples_last hequal] at h
        obtain rfl := Option.some.inj h
        exact ⟨rfl, [1], by simp⟩
  | cons_cons sample next samples ih ihnext =>
    cases hequal : sampleEqual fp key print sample with
    | none => simp [searchWalkSamples, hequal] at h
    | some equal =>
      cases equal with
      | true =>
        -- an equal sample frees its buffer once
        rw [searchWalkSamples_equal hequal] at h
        obtain ⟨data', -, h⟩ := Option.bind_eq_some_iff.mp h
        obtain ⟨hstored, frees, hledger, -⟩ := ihnext next h
        exact ⟨hstored, 1 :: frees, by simp [hledger], by simp⟩
      | false =>
        -- an unequal one frees it twice, and the sample behind it is skipped
        rw [searchWalkSamples_skip hequal] at h
        obtain ⟨hstored, frees, hledger, -⟩ := ih h
        exact ⟨hstored, 2 :: frees, by simp [hledger], by simp⟩

/-- The driver crashes where the walk frees a buffer twice, and otherwise does what the walk
does. -/
theorem searchSamples_eq {info : FeatureInfo} {samples : List FeatureSample} {data : SearchData}
    {ledger : Ledger} (hsound : ledger.Sound) :
    searchSamples fp key print info samples data =
      (searchWalkSamples fp key print info samples ⟨data, ledger, none⟩).bind fun s' =>
        if s'.ledger.Sound then some s'.data else none := by
  induction samples generalizing data ledger with
  | nil => exact (if_pos hsound).symm
  | cons sample samples ih =>
    -- a round that frees the buffer once is sound
    have hround : (ledger ++ [1, 0]).Sound := Ledger.sound_append.mpr ⟨hsound, by decide⟩
    cases hequal : sampleEqual fp key print sample with
    | none => simp [searchSamples, searchWalkSamples, hequal]
    | some equal =>
      cases equal with
      | true =>
        -- an equal sample: one round, and the walk goes on
        rw [searchWalkSamples_equal hequal, Option.bind_assoc]
        simp only [← ih hround]
        simp [searchSamples, hequal]
      | false =>
        -- an unequal one: the walk ends with the list, or frees a buffer twice
        cases samples with
        | nil =>
          rw [searchWalkSamples_last hequal, Option.bind_some, if_pos hround]
          simp [searchSamples, hequal]
        | cons next samples =>
          have hcrash :
              searchSamples fp key print info (sample :: next :: samples) data = none := by
            simp [searchSamples, hequal]
          rw [searchWalkSamples_skip hequal, hcrash]
          refine (Option.bind_eq_none_iff.mpr fun s' hs' => if_neg fun hsound' => ?_).symm
          -- what was freed twice stays so
          obtain ⟨-, frees, hledger, -⟩ := searchWalkSamples_ledger hs'
          rw [hledger, Ledger.sound_append, Ledger.sound_append] at hsound'
          exact absurd hsound'.1.2 (by decide)

/-- The ledger of the walk over the features. -/
theorem searchWalk_ledger {infos : List FeatureInfo} {data : SearchData} {ledger : Ledger}
    {s' : SearchWalk} (h : searchWalk fp key print infos ⟨data, ledger, none⟩ = some s') :
    ∃ frees : List ℕ, s'.ledger = ledger ++ frees.flatMap (fun n => [n, 0]) ∧
      (frees = [] ↔ ∀ info ∈ infos, info.samples = []) := by
  induction infos generalizing data ledger with
  | nil =>
    obtain rfl := Option.some.inj h
    exact ⟨[], by simp⟩
  | cons info infos ih =>
    rw [searchWalk, List.foldlM_cons, Option.bind_eq_bind] at h
    obtain ⟨⟨data₁, ledger₁, stored₁⟩, hsamples, hrest⟩ := Option.bind_eq_some_iff.mp h
    obtain ⟨rfl, frees, rfl, hfrees⟩ := searchWalkSamples_ledger hsamples
    obtain ⟨frees', hledger, hfrees'⟩ := ih hrest
    exact ⟨frees ++ frees', by simp [hledger], by simp [hfrees, hfrees']⟩

/-- The same for the features. -/
theorem searchInfos_eq {infos : List FeatureInfo} {data : SearchData} {ledger : Ledger}
    (hsound : ledger.Sound) :
    infos.foldlM (fun data info => searchSamples fp key print info info.samples data) data =
      (searchWalk fp key print infos ⟨data, ledger, none⟩).bind fun s' =>
        if s'.ledger.Sound then some s'.data else none := by
  induction infos generalizing data ledger with
  | nil => exact (if_pos hsound).symm
  | cons info infos ih =>
    rw [searchWalk, List.foldlM_cons, List.foldlM_cons, searchSamples_eq hsound]
    simp only [Option.bind_eq_bind, Option.bind_assoc]
    refine Option.bind_congr fun ⟨data₁, ledger₁, stored₁⟩ hsamples => ?_
    obtain ⟨rfl, -⟩ := searchWalkSamples_ledger hsamples
    by_cases hsound₁ : ledger₁.Sound
    · rw [if_pos hsound₁]
      exact ih hsound₁
    · rw [if_neg hsound₁]
      refine (Option.bind_eq_none_iff.mpr fun s' hs' => if_neg fun hsound' => ?_).symm
      obtain ⟨frees, hledger, -⟩ := searchWalk_ledger hs'
      rw [hledger] at hsound'
      exact hsound₁ (Ledger.sound_append.mp hsound').1

/-- **The callback is the walk** over the list that it reads, and crashes where the walk frees a
buffer twice. -/
theorem onMatchCbSearch_matched (w : World π) :
    onMatchCbSearch fp w (.matched print) =
      (listFeatureInfo w.uuidOf w.store.db
        (w.dev.query w.searchData.uid w.searchData.index w.searchData.idxEnd)).bind fun infos =>
      (searchWalk fp w.priv.aesKey print infos (.start w.searchData)).bind fun s =>
        if s.ledger.Sound then
          some
            { w.report (.onMatchCbSearch (.matched print)) with
              searchData := s.data
              dev := w.dev.setNotifyAbsMid midExtendedMessage }
        else none := by
  have hempty : Ledger.Sound [] := by decide
  simp only [onMatchCbSearch, searchInfos_eq hempty, Option.bind_eq_bind, Option.bind_assoc]
  refine Option.bind_congr fun infos _ => Option.bind_congr fun s _ => ?_
  split <;> rfl

/-! ### What the callback appends -/

/-- Those of `samples` that are equal to the matched print. -/
def samplesEqual (fp : Libfprint π) (key : Bytes) (print : π) (samples : List FeatureSample) :
    List FeatureSample :=
  samples.filter fun sample => sampleEqual fp key print sample = some true

/-- Those of the features `infos`, each with its feature. -/
def equalSamples (fp : Libfprint π) (key : Bytes) (print : π) (infos : List FeatureInfo) :
    List (FeatureInfo × FeatureSample) :=
  infos.flatMap fun info => (samplesEqual fp key print info.samples).map fun sample =>
    (info, sample)

/-- One entry after the other goes behind `found`. -/
def appendAll (entries : List (FeatureInfo × FeatureSample)) (data : SearchData) :
    Option SearchData :=
  entries.foldlM (fun data (info, sample) => SearchData.append data info sample) data

theorem appendAll_cons (info : FeatureInfo) (sample : FeatureSample)
    (entries : List (FeatureInfo × FeatureSample)) (data : SearchData) :
    appendAll ((info, sample) :: entries) data =
      (SearchData.append data info sample).bind (appendAll entries) := rfl

theorem appendAll_append (entries entries' : List (FeatureInfo × FeatureSample))
    (data : SearchData) :
    appendAll (entries ++ entries') data = (appendAll entries data).bind (appendAll entries') := by
  rw [appendAll, List.foldlM_append]
  rfl

/-- The loop over the samples of a feature appends those that are equal. -/
theorem searchSamples_eq_appendAll {info : FeatureInfo} {samples : List FeatureSample}
    {data data' : SearchData} (h : searchSamples fp key print info samples data = some data') :
    appendAll ((samplesEqual fp key print samples).map fun sample => (info, sample)) data =
      some data' := by
  induction samples generalizing data with
  | nil => exact h
  | cons sample samples ih =>
    rw [searchSamples.eq_def] at h
    obtain ⟨equal, hequal, h⟩ := Option.bind_eq_some_iff.mp h
    cases equal with
    | true =>
      obtain ⟨data₁, hdata₁, h⟩ := Option.bind_eq_some_iff.mp h
      rw [samplesEqual, List.filter_cons_of_pos (by simp [hequal]), List.map_cons, appendAll_cons,
        hdata₁]
      exact ih h
    | false =>
      rw [samplesEqual, List.filter_cons_of_neg (by simp [hequal])]
      cases samples with
      | nil => exact h
      | cons next samples => cases h

/-- **What a callback appends.** If it does not crash, these are the equal samples of the list. -/
theorem searchInfos_eq_appendAll {infos : List FeatureInfo} {data data' : SearchData}
    (h : infos.foldlM (fun data info => searchSamples fp key print info info.samples data) data =
      some data') :
    appendAll (equalSamples fp key print infos) data = some data' := by
  induction infos generalizing data with
  | nil => exact h
  | cons info infos ih =>
    rw [List.foldlM_cons, Option.bind_eq_bind] at h
    obtain ⟨data₁, hsamples, hrest⟩ := Option.bind_eq_some_iff.mp h
    rw [equalSamples, List.flatMap_cons, appendAll_append, searchSamples_eq_appendAll hsamples]
    exact ih hrest

/-! ### Every sample, every buffer -/

/-- A call with the match `print` appends one entry for each sample of the list that is equal, in
the order of the list, and frees each buffer once. -/
def ExaminesEverySample (fp : Libfprint π) (key : Bytes) (print : π) (infos : List FeatureInfo)
    (data : SearchData) : Prop :=
  ∃ s, searchWalk fp key print infos (.start data) = some s ∧
    appendAll (equalSamples fp key print infos) data = some s.data ∧ ∀ n ∈ s.ledger, n = 1

/-- Every sample leaves a buffer behind that is not freed. -/
theorem examinesEverySample_iff (fp : Libfprint π) (key : Bytes) (print : π)
    (infos : List FeatureInfo) (data : SearchData) :
    ExaminesEverySample fp key print infos data ↔ ∀ info ∈ infos, info.samples = [] := by
  constructor
  · rintro ⟨s, hwalk, -, honce⟩
    -- what is freed are the buffers of the samples
    obtain ⟨frees, hledger, hfrees⟩ := searchWalk_ledger hwalk
    -- a sample would free the buffer of number 0 a second time
    refine hfrees.mp (List.eq_nil_iff_forall_not_mem.mpr fun n hn => ?_)
    have hzero : 0 ∈ s.ledger := by
      rw [hledger]
      exact List.mem_append_right _ (List.mem_flatMap.mpr ⟨n, hn, by simp⟩)
    exact absurd (honce 0 hzero) (by decide)
  · intro hnone
    -- without samples the walk does nothing
    have hwalk : ∀ s, searchWalk fp key print infos s = some s := by
      intro s
      induction infos with
      | nil => rfl
      | cons info infos ih =>
        rw [searchWalk, List.foldlM_cons, hnone info (by simp)]
        exact ih fun info hinfo => hnone info (by simp [hinfo])
    -- and nothing can be equal
    have hequal : equalSamples fp key print infos = [] := by
      refine List.flatMap_eq_nil_iff.mpr fun info hinfo => ?_
      rw [hnone info hinfo]
      rfl
    exact ⟨_, hwalk _, by rw [hequal]; rfl, by simp [SearchWalk.start]⟩

end SearchCallback

/-- The second sample of the feature is the matched print. The walk passes over it after the first
one, whose buffer it frees twice. -/
theorem not_examinesEverySample_second :
    ¬ ExaminesEverySample bytesLibfprint defaultAesKey [1, 2, 3]
      [⟨1000, 0, "uru4000", 0, "a", [⟨1, 3, [84, 76, 110, 79]⟩, ⟨2, 3, [84, 76, 110, 78]⟩]⟩]
      ⟨1000, 0, -1, 0, [], some 0⟩ := by
  rintro ⟨s, hwalk, -, honce⟩
  have hledger : (searchWalk bytesLibfprint defaultAesKey [1, 2, 3]
      [⟨1000, 0, "uru4000", 0, "a", [⟨1, 3, [84, 76, 110, 79]⟩, ⟨2, 3, [84, 76, 110, 78]⟩]⟩]
      (.start ⟨1000, 0, -1, 0, [], some 0⟩)).map SearchWalk.ledger = some [2, 0] := by
    decide +kernel
  rw [hwalk, Option.map_some, Option.some.injEq] at hledger
  exact absurd (honce 2 (by simp [hledger])) (by decide)

end BiometricAuth
