import BiometricAuth.Storage.ReaderSpec

/-!
# What the reader lists of one user

Almost every caller of `bio_sto_get_feature_info` asks for one user and the biotype of a device.
Such a cursor is never mistaken for that of another user, but its indices may come cut by
`sqlite3_column_int`, and then they need not come in order: `fileRows` is what the loop makes of
the current rows in any order.

Main results:

* `readRows_oneUser`: along the rows of one user the loop files the current ones;
* `bioStoGetFeatureInfo_of_uid`, `bioStoGetFeatureInfo_eq_some_iff`: what is listed of one user, and
  when the reader crashes instead;
* `userFeatures_eq`: of rows that come through whole one feature is listed for each key;
* `bioStoGetFeatureInfo_of_uuid`: the same for every query, in a table in which the UUID goes by the
  user.
-/

namespace BiometricAuth

/-! ### The order of the features -/

/-- The triple by which the features of one user are ordered. -/
def FeatureInfo.order (info : FeatureInfo) : ℤ ×ₗ String ×ₗ ℤ :=
  toLex (info.biotype, toLex (info.driver, info.index))

/-- The documented features of one user are strictly ordered. -/
theorem order_lt_of_uid {rows : List EigenRow} (uid : ℤ) (uuid : String)
    (hsorted : rows.Pairwise fun r r' => r.key ≤ r'.key)
    (hrows : ∀ r ∈ rows, r.uid = uid ∧ r.uuid = some uuid) :
    (featuresOf rows).Pairwise fun f g => f.order < g.order := by
  have hkeys := Grouping.keys_pairwise_lt EigenRow.key hsorted
  rw [← Grouping.groups_map_fst, List.pairwise_map] at hkeys
  have hof : ∀ g ∈ Grouping.groups EigenRow.key rows, g.1.uid = uid ∧ g.1.uuid = some uuid := by
    intro g hg
    obtain ⟨r, hr, hkey⟩ := (Grouping.mem_keys EigenRow.key).mp
      ((Grouping.mem_groups EigenRow.key).mp hg).1
    rw [← hkey]
    exact hrows r hr
  rw [featuresOf, List.pairwise_map]
  refine hkeys.imp_of_mem fun {g g'} hg hg' hlt => ?_
  have := FeatureKey.tail_lt hlt ((hof g hg).1.trans (hof g' hg').1.symm)
    ((hof g hg).2.trans (hof g' hg').2.symm)
  simpa [FeatureInfo.order, featureOf, Prod.Lex.toLex_lt_toLex] using this

/-! ### One user

Among the rows of one user only the biotype, the driver and the index, as read, decide where a
feature begins. -/

/-- What becomes of a current row of the one user: a feature of its own, or a sample of the last
feature if neither its biotype nor its index is larger and the driver is the same. -/
def fileRow (infos : List FeatureInfo) (r : EigenRow) : List FeatureInfo :=
  match infos.getLast? with
  | none => [r.toFeature]
  | some last =>
    if last.biotype < r.bioType ∨ last.driver ≠ r.driver ∨ last.index < r.eigenIndex then
      infos ++ [r.toFeature]
    else infos.dropLast ++ [{ last with samples := last.samples ++ [r.toSample] }]

/-- The features of the rows of one user. -/
def fileRows (rows : List EigenRow) : List FeatureInfo := rows.foldl fileRow []

section FileRows

variable {rows : List EigenRow} {r : EigenRow} {infos : List FeatureInfo} {last : FeatureInfo}

@[simp] theorem fileRows_nil : fileRows [] = [] := rfl

theorem fileRows_append_singleton (rows : List EigenRow) (r : EigenRow) :
    fileRows (rows ++ [r]) = fileRow (fileRows rows) r := by
  simp [fileRows, List.foldl_append]

/-- A row opens a feature or is appended. -/
theorem fileRow_cases (infos : List FeatureInfo) (r : EigenRow) :
    fileRow infos r = infos ++ [r.toFeature] ∨
      ∃ init last, infos = init ++ [last] ∧
        fileRow infos r = init ++ [{ last with samples := last.samples ++ [r.toSample] }] := by
  unfold fileRow
  cases hlast : infos.getLast? with
  | none =>
    left
    rw [List.getLast?_eq_none_iff.mp hlast]
    rfl
  | some last =>
    obtain ⟨init, rfl⟩ := List.getLast?_eq_some_iff.mp hlast
    by_cases hopen : last.biotype < r.bioType ∨ last.driver ≠ r.driver ∨ last.index < r.eigenIndex
    · exact .inl (if_pos hopen)
    · refine .inr ⟨init, last, rfl, ?_⟩
      rw [List.dropLast_concat]
      exact if_neg hopen

theorem fileRow_of_last (h : infos.getLast? = some last) : fileRow infos r =
    if last.biotype < r.bioType ∨ last.driver ≠ r.driver ∨ last.index < r.eigenIndex then
      infos ++ [r.toFeature]
    else infos.dropLast ++ [{ last with samples := last.samples ++ [r.toSample] }] := by
  rw [fileRow, h]

/-- Every row is a sample, in order. -/
theorem fileRows_samples (rows : List EigenRow) :
    (fileRows rows).flatMap FeatureInfo.samples = rows.map EigenRow.toSample := by
  induction rows using List.reverseRecOn with
  | nil => rfl
  | append_singleton rows r ih =>
    rw [fileRows_append_singleton, List.map_append, List.map_singleton, ← ih]
    rcases fileRow_cases (fileRows rows) r with heq | ⟨init, last, hinfos, heq⟩
    · rw [heq, List.flatMap_append]
      rfl
    · rw [heq, hinfos]
      simp

theorem fileRows_eq_nil_iff : fileRows rows = [] ↔ rows = [] := by
  constructor
  · intro h
    have hsamples := fileRows_samples rows
    rw [h] at hsamples
    exact List.map_eq_nil_iff.mp hsamples.symm
  · rintro rfl
    rfl

/-- Every feature is one that a row opens, and holds a sample. -/
theorem exists_row_of_mem_fileRows {info : FeatureInfo} (h : info ∈ fileRows rows) :
    info.samples ≠ [] ∧ ∃ r ∈ rows, info = { r.toFeature with samples := info.samples } := by
  induction rows using List.reverseRecOn generalizing info with
  | nil => simp at h
  | append_singleton rows r ih =>
    have hold : ∀ info ∈ fileRows rows, info.samples ≠ [] ∧
        ∃ r' ∈ rows ++ [r], info = { r'.toFeature with samples := info.samples } := by
      intro info hinfo
      obtain ⟨hne, r', hr', heq⟩ := ih hinfo
      exact ⟨hne, r', List.mem_append_left _ hr', heq⟩
    rw [fileRows_append_singleton] at h
    rcases fileRow_cases (fileRows rows) r with heq | ⟨init, last, hinfos, heq⟩
    · rw [heq, List.mem_append, List.mem_singleton] at h
      rcases h with h | rfl
      · exact hold info h
      · exact ⟨List.cons_ne_nil _ _, r, by simp, rfl⟩
    · rw [heq, List.mem_append, List.mem_singleton] at h
      rcases h with h | rfl
      · exact hold info (by rw [hinfos]; exact List.mem_append_left _ h)
      · obtain ⟨-, r', hr', hlast⟩ := hold last (by rw [hinfos]; simp)
        exact ⟨by simp, r', hr', by rw [hlast]⟩

/-- Rows of one user and UUID that come sorted as they are read make one feature for each key. -/
theorem fileRows_eq_featuresOf (hsorted : rows.Pairwise fun r r' => r.key ≤ r'.key)
    (hsame : ∀ r ∈ rows, ∀ r' ∈ rows, r.uid = r'.uid ∧ r.uuid = r'.uuid) :
    fileRows rows = featuresOf rows := by
  -- by induction on the rows, from the last one
  induction rows using List.reverseRecOn with
  | nil => rfl
  | append_singleton rows r ih =>
    obtain ⟨hinner, -, hle⟩ := List.pairwise_append.mp hsorted
    have ih := ih hinner fun a ha b hb =>
      hsame a (List.mem_append_left _ ha) b (List.mem_append_left _ hb)
    rw [fileRows_append_singleton, ih]
    cases hlast : rows.getLast? with
    | none =>
      rw [List.getLast?_eq_none_iff.mp hlast, featuresOf_append_new (by simp)]
      rfl
    | some v =>
      have hv := List.mem_of_getLast? hlast
      obtain ⟨info, hinfo, -, hbio, hdrv, hidx⟩ := featuresOf_getLast hinner hlast
      obtain ⟨huid, huuid⟩ := hsame v (by simp [hv]) r (by simp)
      have hvr : v.key ≤ r.key := hle v hv r (by simp)
      rw [fileRow_of_last hinfo]
      by_cases hkey : v.key = r.key
      · -- the key of the last row: a further sample
        obtain ⟨-, -, hb, hd, hi⟩ := EigenRow.key_eq_iff.mp hkey
        have happ := featuresOf_append_last hinner hlast hkey
        rw [appendSample, hinfo, Option.some.injEq] at happ
        rw [if_neg (by simp [hbio, hdrv, hidx, hb, hd, hi]), happ]
      · -- another key is a larger one, and the user is the same
        have htail := FeatureKey.tail_lt (lt_of_le_of_ne hvr hkey) huid huuid
        have hopen : v.bioType < r.bioType ∨ v.driver ≠ r.driver ∨
            v.eigenIndex < r.eigenIndex := by
          rcases htail with hb | ⟨-, hd | ⟨-, hi⟩⟩
          · exact .inl hb
          · exact .inr (.inl (ne_of_lt hd))
          · exact .inr (.inr hi)
        rw [if_pos (by rwa [hbio, hdrv, hidx]), featuresOf_append_new]
        -- no row before the last one has the key either
        intro b hb heq
        obtain ⟨init, rfl⟩ := List.getLast?_eq_some_iff.mp hlast
        rcases List.mem_append.mp hb with hb | hb
        · have hbv : b.key ≤ v.key := (List.pairwise_append.mp hinner).2.2 b hb v (by simp)
          exact hkey (le_antisymm hvr (heq ▸ hbv))
        · rw [List.mem_singleton.mp hb] at heq
          exact hkey heq

end FileRows

/-- The loop along rows of one user `uid`. -/
structure OneUser (uuidOf : ℤ → String) (uid : ℤ) (before : List EigenRow) (st : ReadState) :
    Prop where
  /-- Nobody is noted at the start. -/
  start : before = [] → st.oldUid = -1
  /-- The user is noted with the first row, -/
  user : before ≠ [] → st.oldUid = uid
  /-- and the UUID with the user. -/
  held : st.oldUid = uid → st.userUuid = uuidOf uid
  /-- Nothing is open while the list is empty. -/
  fresh : st.infoList.getLast? = none → st.oldBioType = -1 ∧ st.oldDriver = none
  /-- The `old_*` variables are those of the last feature. -/
  opened : ∀ last, st.infoList.getLast? = some last → st.oldBioType = last.biotype ∧
    st.oldDriver = some last.driver ∧ st.oldIdx = last.index ∧ st.oldUuid = uuidOf uid
  /-- The list holds the current rows. -/
  list : st.infoList = fileRows (before.filter fun r => r.isCurrent uuidOf)

section OneUser

variable {uuidOf : ℤ → String} {uid : ℤ} {before rows : List EigenRow} {r : EigenRow}
  {st : ReadState}

theorem oneUser_init (uuidOf : ℤ → String) (hne : uid ≠ -1) :
    OneUser uuidOf uid [] ReadState.init where
  start := fun _ => rfl
  user := fun h => absurd rfl h
  held := fun h => absurd h.symm hne
  fresh := fun _ => ⟨rfl, rfl⟩
  opened := by simp [ReadState.init]
  list := rfl

/-- The UUID held against a row of the user is the user's. -/
theorem OneUser.lookup_eq (h : OneUser uuidOf uid before st) (huid : r.uid = uid) :
    st.lookup uuidOf r = uuidOf uid := by
  unfold ReadState.lookup
  by_cases hold : st.oldUid = uid
  · rw [if_neg (not_not.mpr (hold.trans huid.symm)), h.held hold]
  · rw [if_pos (by rwa [huid]), huid]

/-- The first row that is current opens a feature. -/
theorem OneUser.opensFeature_fresh (h : OneUser uuidOf uid before st)
    (hlast : st.infoList.getLast? = none) (hnew : st.oldUid < r.uid ∨ 0 ≤ r.bioType)
    (uuid : String) : st.opensFeature r uuid = some true := by
  have hold := (h.fresh hlast).1
  exact if_pos (hnew.imp_right fun hbio => by omega)

/-- After that the test compares a row with the last feature. -/
theorem OneUser.opensFeature_last (h : OneUser uuidOf uid before st) (huid : r.uid = uid)
    {last : FeatureInfo} (hlast : st.infoList.getLast? = some last) (uuid : String) :
    st.oldUid = uid ∧ st.opensFeature r uuid = some (decide (last.biotype < r.bioType ∨
      last.driver ≠ r.driver ∨ last.index < r.eigenIndex ∨ uuidOf uid ≠ uuid)) := by
  obtain ⟨hbio, hdrv, hidx, hold⟩ := h.opened last hlast
  have hbefore : before ≠ [] := by
    rintro rfl
    rw [h.list] at hlast
    simp at hlast
  have huser := h.user hbefore
  refine ⟨huser, ?_⟩
  unfold ReadState.opensFeature
  rw [hbio, hdrv, hidx, hold, huser, huid]
  by_cases hnew : last.biotype < r.bioType <;> simp [hnew]

/-- A row whose UUID is not the user's leaves no more than the user. -/
theorem OneUser.stale (h : OneUser uuidOf uid before st) (hcur : r.isCurrent uuidOf = false) :
    OneUser uuidOf uid (before ++ [r]) { st with oldUid := uid, userUuid := uuidOf uid } where
  start := by simp
  user := fun _ => rfl
  held := fun _ => rfl
  fresh := h.fresh
  opened := h.opened
  list := by rw [filter_isCurrent_append_stale hcur, h.list]

theorem OneUser.openFeature (h : OneUser uuidOf uid before st) (hcur : r.isCurrent uuidOf = true)
    (huid : r.uid = uid) (hopen : fileRow st.infoList r = st.infoList ++ [r.toFeature]) :
    OneUser uuidOf uid (before ++ [r])
      { oldUid := r.uid, oldBioType := r.bioType, oldDriver := some r.driver,
        oldIdx := r.eigenIndex, oldUuid := uuidOf uid, userUuid := uuidOf uid,
        infoList := st.infoList ++ [r.toFeature] } where
  start := by simp
  user := fun _ => huid
  held := fun _ => rfl
  fresh := by simp
  opened := by
    intro last hlast
    rw [List.getLast?_concat] at hlast
    obtain rfl := Option.some.inj hlast
    exact ⟨rfl, rfl, rfl, rfl⟩
  list := by
    rw [filter_isCurrent_append before hcur, fileRows_append_singleton, ← h.list, hopen]

theorem OneUser.appendSample (h : OneUser uuidOf uid before st) (hcur : r.isCurrent uuidOf = true)
    {last : FeatureInfo} (hlast : st.infoList.getLast? = some last) (hold : st.oldUid = uid)
    (hopen : ¬ (last.biotype < r.bioType ∨ last.driver ≠ r.driver ∨ last.index < r.eigenIndex)) :
    ∃ infos, BiometricAuth.appendSample st.infoList r.toSample = some infos ∧
      OneUser uuidOf uid (before ++ [r]) { st with infoList := infos } := by
  refine ⟨fileRow st.infoList r, ?_, ?_⟩
  · rw [fileRow_of_last hlast, if_neg hopen, BiometricAuth.appendSample, hlast]
  · rw [fileRow_of_last hlast, if_neg hopen]
    refine ⟨by simp, fun _ => hold, h.held, by simp, ?_, ?_⟩
    · intro last' hlast'
      rw [List.getLast?_concat] at hlast'
      obtain rfl := Option.some.inj hlast'
      exact h.opened last hlast
    · rw [filter_isCurrent_append before hcur, fileRows_append_singleton, ← h.list,
        fileRow_of_last hlast, if_neg hopen]

/-- **Step lemma.** One more row of the user, whatever its index. -/
theorem OneUser.readRow (h : OneUser uuidOf uid before st) (huid : r.uid = uid)
    (hnew : st.infoList.getLast? = none → st.oldUid < r.uid ∨ 0 ≤ r.bioType)
    (huuid : r.uuid ≠ none) :
    ∃ st', BiometricAuth.readRow uuidOf st r = some st' ∧
      OneUser uuidOf uid (before ++ [r]) st' := by
  obtain ⟨uuid, huuid⟩ := Option.ne_none_iff_exists'.mp huuid
  have hlook := h.lookup_eq huid
  have hcurrent : r.isCurrent uuidOf = true ↔ uuid = uuidOf uid := by
    simp [EigenRow.isCurrent, huuid, huid]
  -- a row whose UUID is not the user's is skipped
  have hskip : st.opensFeature r uuid = some true → r.isCurrent uuidOf = false →
      ∃ st', BiometricAuth.readRow uuidOf st r = some st' ∧
        OneUser uuidOf uid (before ++ [r]) st' := by
    intro hopens hcur
    have hrow := readRow_skip huuid hopens (by rw [hlook]; simpa [hcur] using hcurrent.symm)
    rw [hlook, huid] at hrow
    exact ⟨_, hrow, h.stale hcur⟩
  cases hlast : st.infoList.getLast? with
  | none =>
    -- the first feature is opened by the first current row
    have hopens := h.opensFeature_fresh hlast (hnew hlast) uuid
    cases hcur : r.isCurrent uuidOf with
    | true =>
      obtain rfl := hcurrent.mp hcur
      refine ⟨_, readRow_open huuid hopens hlook.symm, h.openFeature hcur huid ?_⟩
      rw [fileRow, hlast, List.getLast?_eq_none_iff.mp hlast]
      rfl
    | false => exact hskip hopens hcur
  | some last =>
    -- a later row is compared with the last feature
    obtain ⟨hold, hopens⟩ := h.opensFeature_last huid hlast uuid
    cases hcur : r.isCurrent uuidOf with
    | true =>
      obtain rfl := hcurrent.mp hcur
      simp only [ne_eq, not_true_eq_false, or_false] at hopens
      by_cases hopen : last.biotype < r.bioType ∨ last.driver ≠ r.driver ∨
          last.index < r.eigenIndex
      · rw [decide_eq_true hopen] at hopens
        refine ⟨_, readRow_open huuid hopens hlook.symm, h.openFeature hcur huid ?_⟩
        rw [fileRow_of_last hlast, if_pos hopen]
      · -- no field is larger than in the last feature: a further sample
        rw [decide_eq_false hopen] at hopens
        obtain ⟨infos, happ, h'⟩ := h.appendSample hcur hlast hold hopen
        have hrow := readRow_append uuidOf huuid hopens (h.held hold).symm
        rw [happ, Option.map_some] at hrow
        exact ⟨_, hrow, h'⟩
    | false =>
      -- a UUID that is not the user's tells the row from the last feature
      refine hskip ?_ hcur
      rw [hopens, decide_eq_true]
      exact .inr (.inr (.inr fun heq => by rw [hcurrent.mpr heq.symm] at hcur; cases hcur))

/-- The uid noted is that of the row before. -/
theorem OneUser.uid_eq (h : OneUser uuidOf uid before st) (huid : ∀ r ∈ before, r.uid = uid) :
    st.oldUid = (before.getLast?.map EigenRow.uid).getD (-1) := by
  cases hlast : before.getLast? with
  | none => exact h.start (List.getLast?_eq_none_iff.mp hlast)
  | some l =>
    have hl := List.mem_of_getLast? hlast
    rw [h.user (List.ne_nil_of_mem hl), ← huid l hl]
    rfl

end OneUser

/-! ### Asking for one user -/

section Query

variable {uuidOf : ℤ → String} {db : EigenInfo} {q : FeatureQuery}

theorem isCurrent_comp_columns (huid : q.uid ≠ -1) :
    EigenRow.isCurrent uuidOf ∘ q.columns = EigenRow.isCurrent uuidOf := by
  funext r
  simp [EigenRow.isCurrent, FeatureQuery.columns_uid huid]

/-- The test on a row, when the list is empty and the rows before were of the user. -/
theorem OneUser.oldUid_lt_iff {rows : List EigenRow} {r : EigenRow} {st : ReadState}
    (huid : q.uid ≠ -1) (h : OneUser uuidOf q.uid (rows.map q.columns) st)
    (hrows : ∀ r ∈ rows, r.uid = q.uid) : st.oldUid < (q.columns r).uid ↔
      (rows.getLast?.map EigenRow.uid).getD (-1) < r.uid := by
  rw [h.uid_eq (List.forall_mem_map.mpr fun r hr => (FeatureQuery.columns_uid huid).trans
    (hrows r hr)), FeatureQuery.columns_uid huid, List.getLast?_map, Option.map_map]
  have hcomp : EigenRow.uid ∘ q.columns = EigenRow.uid :=
    funext fun r => FeatureQuery.columns_uid huid
  rw [hcomp]

/-- The list is empty as long as no row has been current. -/
theorem OneUser.getLast?_eq_none_iff {rows : List EigenRow} {st : ReadState} (huid : q.uid ≠ -1)
    (h : OneUser uuidOf q.uid (rows.map q.columns) st) : st.infoList.getLast? = none ↔
      ∀ r ∈ rows, r.isCurrent uuidOf = false := by
  rw [List.getLast?_eq_none_iff, h.list, fileRows_eq_nil_iff, List.filter_eq_nil_iff,
    List.forall_mem_map]
  refine forall₂_congr fun r _ => ?_
  rw [Bool.not_eq_true, ← congrFun (isCurrent_comp_columns huid) r]
  rfl

/-- **Run lemma.** The rows of one user are read to the end if the loop gets to the first current
one. -/
theorem readRows_oneUser (huid : q.uid ≠ -1) {rows : List EigenRow}
    (hrows : ∀ r ∈ rows, r.uid = q.uid ∧ r.uuid ≠ none) (hstarts : Starts uuidOf q rows) :
    ∃ st, readRows uuidOf (rows.map q.columns) = some st ∧
      OneUser uuidOf q.uid (rows.map q.columns) st := by
  induction rows using List.reverseRecOn with
  | nil => exact ⟨_, rfl, oneUser_init uuidOf huid⟩
  | append_singleton rows r ih =>
    rw [List.forall_mem_append, List.forall_mem_singleton] at hrows
    obtain ⟨st, hst, h⟩ := ih hrows.1 fun before r' hpre =>
      hstarts before r' (hpre.trans (List.prefix_append _ _))
    obtain ⟨st', hst', h'⟩ := h.readRow ((FeatureQuery.columns_uid huid).trans hrows.2.1)
      (fun hlast => by
        rw [h.oldUid_lt_iff huid fun r hr => (hrows.1 r hr).1]
        exact hstarts rows r (List.prefix_refl _) ((h.getLast?_eq_none_iff huid).mp hlast))
      hrows.2.2
    rw [List.map_append, List.map_singleton]
    exact ⟨st', by rw [readRows_append_singleton, hst, Option.bind_some, hst'], h'⟩

/-- If they are read to the end, it does. -/
theorem starts_of_readRows (huid : q.uid ≠ -1) {rows : List EigenRow}
    (hrows : ∀ r ∈ rows, r.uid = q.uid ∧ r.uuid ≠ none) {st : ReadState}
    (hread : readRows uuidOf (rows.map q.columns) = some st) : Starts uuidOf q rows := by
  induction rows using List.reverseRecOn generalizing st with
  | nil =>
    intro before r hpre
    rw [List.prefix_nil] at hpre
    exact absurd hpre (List.append_ne_nil_of_right_ne_nil _ (List.cons_ne_nil _ _))
  | append_singleton rows r ih =>
    rw [List.forall_mem_append, List.forall_mem_singleton] at hrows
    rw [List.map_append, List.map_singleton, readRows_append_singleton] at hread
    obtain ⟨st₁, hst₁, hrow⟩ := Option.bind_eq_some_iff.mp hread
    have hstarts := ih hrows.1 hst₁
    obtain ⟨st₁', hst₁', h⟩ := readRows_oneUser huid hrows.1 hstarts
    obtain rfl := Option.some.inj (hst₁.symm.trans hst₁')
    intro before r' hpre hstale
    rcases List.prefix_concat_iff.mp hpre with heq | hpre
    · obtain ⟨rfl, hr⟩ := List.append_inj' heq rfl
      obtain rfl := List.singleton_inj.mp hr
      by_contra hnot
      -- nothing has been opened, and `old_driver` is compared
      obtain ⟨hbio, hdriver⟩ := h.fresh ((h.getLast?_eq_none_iff huid).mpr hstale)
      rw [← h.oldUid_lt_iff huid fun r hr => (hrows.1 r hr).1] at hnot
      obtain ⟨uuid, huuid⟩ := Option.ne_none_iff_exists'.mp hrows.2.2
      have hopens : st₁.opensFeature (q.columns r') uuid = none := by
        rw [ReadState.opensFeature, if_neg (by rw [hbio]; omega), hdriver]
      rw [readRow_crash uuidOf (r := q.columns r') huuid hopens] at hrow
      cases hrow
    · exact hstarts before r' hpre hstale

/-- What is listed of one user: the current rows as read, filed in their order. -/
def userFeatures (uuidOf : ℤ → String) (db : EigenInfo) (q : FeatureQuery) : List FeatureInfo :=
  fileRows ((currentRows uuidOf db q).map q.columns)

/-- Asked for one user, `bio_sto_get_feature_info` lists the current rows if it gets to them. -/
theorem bioStoGetFeatureInfo_of_starts (huid : q.uid ≠ -1)
    (huuid : ∀ r ∈ db.rows, q.selects r = true → r.uuid ≠ none) {infos : List FeatureInfo} :
    bioStoGetFeatureInfo uuidOf db q = some infos ↔
      Starts uuidOf q (selectRows db q) ∧ infos = userFeatures uuidOf db q := by
  -- the rows are those of one user
  have hrows : ∀ r ∈ selectRows db q, r.uid = q.uid ∧ r.uuid ≠ none := by
    intro r hr
    obtain ⟨hrow, hselects⟩ := mem_selectRows.mp hr
    exact ⟨(FeatureQuery.selects_iff.mp hselects).2.1.resolve_left huid, huuid r hrow hselects⟩
  -- the cursor starts, and lists the ones under its UUID
  have hlist : Starts uuidOf q (selectRows db q) →
      bioStoGetFeatureInfo uuidOf db q = some (userFeatures uuidOf db q) := by
    intro hstarts
    obtain ⟨st, hst, h⟩ := readRows_oneUser huid hrows hstarts
    rw [bioStoGetFeatureInfo, hst, Option.map_some, h.list, List.filter_map,
      isCurrent_comp_columns huid]
    rfl
  constructor
  · intro h
    obtain ⟨st, hst, -⟩ := Option.map_eq_some_iff.mp h
    -- it cannot have listed them without starting
    have hstarts := starts_of_readRows huid hrows hst
    exact ⟨hstarts, Option.some.inj (h.symm.trans (hlist hstarts))⟩
  · rintro ⟨hstarts, rfl⟩
    exact hlist hstarts

/-- So it does where no biotype is read as a negative number. -/
theorem bioStoGetFeatureInfo_of_uid (huid : q.uid ≠ -1)
    (hbio : ∀ r ∈ db.rows, q.selects r = true → 0 ≤ (q.columns r).bioType)
    (huuid : ∀ r ∈ db.rows, q.selects r = true → r.uuid ≠ none) :
    bioStoGetFeatureInfo uuidOf db q = some (userFeatures uuidOf db q) := by
  refine (bioStoGetFeatureInfo_of_starts huid huuid).mpr ⟨fun before r hpre _ => .inr ?_, rfl⟩
  obtain ⟨hrow, hselects⟩ := mem_selectRows.mp
    (hpre.subset (List.mem_append_right _ (List.mem_singleton_self r)))
  exact hbio r hrow hselects

/-- A row of numbers of type `int` is read whole by every query. -/
theorem FeatureQuery.columns_of_isCInt {r : EigenRow} (huid : IsCInt r.uid)
    (hbio : IsCInt r.bioType) (hidx : IsCInt r.eigenIndex) : q.columns r = r := by
  refine columns_eq_self_iff.mpr ⟨?_, ?_, ?_⟩
  · exact (if_congr Iff.rfl (columnInt_of_isCInt huid) rfl).trans (ite_self _)
  · exact (if_congr Iff.rfl (columnInt_of_isCInt hbio) rfl).trans (ite_self _)
  · exact (if_congr Iff.rfl (columnInt_of_isCInt hidx) rfl).trans (ite_self _)

/-- The numbers of a row are of type `int`, as all those are that the library binds. -/
structure EigenRow.Ints (r : EigenRow) : Prop where
  uid : IsCInt r.uid
  bioType : IsCInt r.bioType
  eigenIndex : IsCInt r.eigenIndex
  sampleNo : IsCInt r.sampleNo

theorem EigenRow.Ints.columns {r : EigenRow} (h : r.Ints) : q.columns r = r :=
  FeatureQuery.columns_of_isCInt h.uid h.bioType h.eigenIndex

theorem EigenRow.Ints.toSample_no {r : EigenRow} (h : r.Ints) : r.toSample.no = r.sampleNo :=
  columnInt_of_isCInt h.sampleNo

/-- Of rows that come through whole one feature is listed for each key. -/
theorem userFeatures_eq (huid : q.uid ≠ -1)
    (hwhole : ∀ r ∈ currentRows uuidOf db q, q.columns r = r) :
    userFeatures uuidOf db q = featuresOf (currentRows uuidOf db q) := by
  rw [userFeatures, List.map_congr_left hwhole, List.map_id']
  refine fileRows_eq_featuresOf (currentRows_sorted uuidOf db q) fun r hr r' hr' => ?_
  obtain ⟨-, hselects, hcur⟩ := mem_currentRows.mp hr
  obtain ⟨-, hselects', hcur'⟩ := mem_currentRows.mp hr'
  have hru := (FeatureQuery.selects_iff.mp hselects).2.1.resolve_left huid
  have hru' := (FeatureQuery.selects_iff.mp hselects').2.1.resolve_left huid
  have huuid : r.uuid = some (uuidOf r.uid) := of_decide_eq_true hcur
  have huuid' : r'.uuid = some (uuidOf r'.uid) := of_decide_eq_true hcur'
  exact ⟨hru.trans hru'.symm, by rw [huuid, huuid', hru, hru']⟩

theorem userFeatures_samples (uuidOf : ℤ → String) (db : EigenInfo) (q : FeatureQuery) :
    (userFeatures uuidOf db q).flatMap FeatureInfo.samples =
      (currentRows uuidOf db q).map EigenRow.toSample := by
  rw [userFeatures, fileRows_samples, List.map_map]
  rfl

/-- Every feature listed is one that a current row opens, its columns as read. -/
theorem exists_row_of_mem_userFeatures {info : FeatureInfo}
    (h : info ∈ userFeatures uuidOf db q) : info.samples ≠ [] ∧
      ∃ r ∈ currentRows uuidOf db q,
        info = { (q.columns r).toFeature with samples := info.samples } := by
  obtain ⟨hne, r', hr', heq⟩ := exists_row_of_mem_fileRows h
  obtain ⟨r, hr, rfl⟩ := List.mem_map.mp hr'
  exact ⟨hne, r, hr, heq⟩

end Query

/-! ### Crashes -/

/-- A row without a UUID is never read to the end. -/
theorem uuid_ne_none_of_readRows {uuidOf : ℤ → String} {rows : List EigenRow} {st : ReadState}
    (h : readRows uuidOf rows = some st) : ∀ r ∈ rows, r.uuid ≠ none := by
  induction rows using List.reverseRecOn generalizing st with
  | nil => simp
  | append_singleton rows r ih =>
    rw [readRows_append_singleton] at h
    obtain ⟨st₁, hst₁, hrow⟩ := Option.bind_eq_some_iff.mp h
    intro r' hr'
    rw [List.mem_append, List.mem_singleton] at hr'
    rcases hr' with hr' | rfl
    · exact ih hst₁ r' hr'
    · obtain ⟨uuid, huuid, -⟩ := Option.bind_eq_some_iff.mp hrow
      rw [huuid]
      exact Option.some_ne_none uuid

/-- Before a feature has been opened nothing is compared and nothing appended. -/
def ReadState.Ready (st : ReadState) : Prop :=
  0 ≤ st.oldBioType → (∃ driver, st.oldDriver = some driver) ∧ st.infoList ≠ []

/-- The comparison with `old_driver` is reached with a feature open. -/
theorem ReadState.Ready.opensFeature {st : ReadState} {r : EigenRow} (h : st.Ready)
    (hbio : 0 ≤ r.bioType) (uuid : String) : ∃ opens, st.opensFeature r uuid = some opens ∧
      (opens = false → (∃ driver, st.oldDriver = some driver) ∧ st.infoList ≠ []) := by
  unfold ReadState.opensFeature
  by_cases hnew : st.oldUid < r.uid ∨ st.oldBioType < r.bioType
  · exact ⟨true, if_pos hnew, by simp⟩
  · obtain ⟨⟨driver, hdriver⟩, hlist⟩ := h (by omega)
    rw [if_neg hnew, hdriver]
    exact ⟨_, rfl, fun _ => ⟨⟨driver, rfl⟩, hlist⟩⟩

/-- A row with a UUID is read from every such state. -/
theorem ReadState.Ready.readRow (uuidOf : ℤ → String) {st : ReadState} {r : EigenRow}
    (h : st.Ready) (hbio : 0 ≤ r.bioType) {uuid : String} (huuid : r.uuid = some uuid) :
    ∃ st', BiometricAuth.readRow uuidOf st r = some st' ∧ st'.Ready := by
  obtain ⟨opens, hopens, hclosed⟩ := h.opensFeature hbio uuid
  unfold BiometricAuth.readRow
  simp only [huuid, hopens, Option.bind_eq_bind, Option.bind_some]
  cases opens with
  | true =>
    -- whatever has been looked up, the row is skipped or opens a feature
    have hnext : ∀ st₁ : ReadState, st₁.Ready → ∃ st',
        (if uuid ≠ st₁.userUuid then some st₁
          else some { st₁ with
            oldUid := r.uid
            oldBioType := r.bioType
            oldDriver := some r.driver
            oldIdx := r.eigenIndex
            oldUuid := uuid
            infoList := st₁.infoList ++ [r.toFeature] }) = some st' ∧ st'.Ready := by
      intro st₁ h₁
      split
      · exact ⟨st₁, rfl, h₁⟩
      · exact ⟨_, rfl, fun _ => ⟨⟨r.driver, rfl⟩, by simp⟩⟩
    -- the user is looked up unless it is noted already
    rw [if_pos rfl]
    by_cases huid : st.oldUid = r.uid
    · rw [if_neg (not_not.mpr huid)]
      exact hnext st h
    · rw [if_pos huid]
      exact hnext { st with userUuid := uuidOf r.uid, oldUid := r.uid } h
  | false =>
    -- a row that opens nothing comes behind a feature, which takes its sample if the UUIDs agree
    obtain ⟨⟨driver, hdriver⟩, hlist⟩ := hclosed rfl
    obtain ⟨last, hlast⟩ := Option.isSome_iff_exists.mp (List.getLast?_isSome.mpr hlist)
    rw [if_neg Bool.false_ne_true]
    split
    · exact ⟨st, rfl, h⟩
    · unfold BiometricAuth.appendSample
      rw [hlast]
      exact ⟨_, rfl, fun _ => ⟨⟨driver, hdriver⟩, by simp⟩⟩

/-- Rows with a UUID are read to the end. -/
theorem exists_readRows (uuidOf : ℤ → String) {rows : List EigenRow}
    (hbio : ∀ r ∈ rows, 0 ≤ r.bioType) (huuid : ∀ r ∈ rows, r.uuid ≠ none) :
    ∃ st, readRows uuidOf rows = some st ∧ st.Ready := by
  induction rows using List.reverseRecOn with
  | nil => exact ⟨ReadState.init, rfl, fun h => absurd h (by decide)⟩
  | append_singleton rows r ih =>
    obtain ⟨st, hst, hready⟩ := ih (fun r' hr' => hbio r' (List.mem_append_left _ hr'))
      fun r' hr' => huuid r' (List.mem_append_left _ hr')
    have hr : r ∈ rows ++ [r] := List.mem_append_right _ (List.mem_singleton_self r)
    obtain ⟨uuid, hsome⟩ := Option.ne_none_iff_exists'.mp (huuid r hr)
    rw [readRows_append_singleton, hst]
    exact hready.readRow uuidOf (hbio r hr) hsome

/-- Asked for one biotype, the loop reads that biotype. -/
theorem columns_bioType_nonneg {q : FeatureQuery} (hbio : 0 ≤ q.biotype) {r : EigenRow}
    (h : q.selects r = true) : 0 ≤ (q.columns r).bioType := by
  have hrbio := (FeatureQuery.selects_iff.mp h).2.2.1
  rw [FeatureQuery.columns_bioType hbio]
  omega

/-- Asked for one biotype, the reader crashes exactly on a selected row without a UUID. -/
theorem exists_bioStoGetFeatureInfo_iff (uuidOf : ℤ → String) {db : EigenInfo} {q : FeatureQuery}
    (hbio : 0 ≤ q.biotype) : (∃ infos, bioStoGetFeatureInfo uuidOf db q = some infos) ↔
      ∀ r ∈ db.rows, q.selects r = true → r.uuid ≠ none := by
  unfold bioStoGetFeatureInfo
  constructor
  · rintro ⟨infos, h⟩ r hr hselects
    obtain ⟨st, hst, -⟩ := Option.map_eq_some_iff.mp h
    exact uuid_ne_none_of_readRows hst (q.columns r)
      (List.mem_map_of_mem (mem_selectRows.mpr ⟨hr, hselects⟩))
  · intro huuid
    obtain ⟨st, hst, -⟩ := @exists_readRows uuidOf ((selectRows db q).map q.columns)
      (List.forall_mem_map.mpr fun r hr => columns_bioType_nonneg hbio (mem_selectRows.mp hr).2)
      (List.forall_mem_map.mpr fun r hr =>
        huuid r (mem_selectRows.mp hr).1 (mem_selectRows.mp hr).2)
    exact ⟨st.infoList, by rw [hst, Option.map_some]⟩

/-- Asked for one user and one biotype, the reader lists the current rows unless it crashes. -/
theorem bioStoGetFeatureInfo_eq_some_iff (uuidOf : ℤ → String) {db : EigenInfo}
    {q : FeatureQuery} (huid : q.uid ≠ -1) (hbio : 0 ≤ q.biotype) {infos : List FeatureInfo} :
    bioStoGetFeatureInfo uuidOf db q = some infos ↔ infos = userFeatures uuidOf db q ∧
      ∀ r ∈ db.rows, q.selects r = true → r.uuid ≠ none := by
  have hcurrent : (∀ r ∈ db.rows, q.selects r = true → r.uuid ≠ none) →
      bioStoGetFeatureInfo uuidOf db q = some (userFeatures uuidOf db q) :=
    bioStoGetFeatureInfo_of_uid huid fun r _ hselects => columns_bioType_nonneg hbio hselects
  constructor
  · intro h
    have huuid := (exists_bioStoGetFeatureInfo_iff uuidOf hbio).mp ⟨infos, h⟩
    exact ⟨Option.some.inj (h.symm.trans (hcurrent huuid)), huuid⟩
  · rintro ⟨rfl, huuid⟩
    exact hcurrent huuid

/-- Asked for one user and one biotype, every sample returned is that of a selected row
with the current UUID of the user, whatever else is in the table. -/
theorem exists_row_of_mem_samples {uuidOf : ℤ → String} {db : EigenInfo} {q : FeatureQuery}
    {infos : List FeatureInfo} (huid : q.uid ≠ -1) (hbio : 0 ≤ q.biotype)
    (h : bioStoGetFeatureInfo uuidOf db q = some infos) {info : FeatureInfo} {s : FeatureSample}
    (hinfo : info ∈ infos) (hs : s ∈ info.samples) :
    ∃ r ∈ db.rows, q.selects r = true ∧ r.uuid = some (uuidOf r.uid) ∧ s = r.toSample := by
  obtain ⟨rfl, -⟩ := (bioStoGetFeatureInfo_eq_some_iff uuidOf huid hbio).mp h
  have hmem := List.mem_flatMap.mpr ⟨info, hinfo, hs⟩
  rw [userFeatures_samples] at hmem
  obtain ⟨r, hr, rfl⟩ := List.mem_map.mp hmem
  obtain ⟨hrow, hselects, hcurrent⟩ := mem_currentRows.mp hr
  exact ⟨r, hrow, hselects, of_decide_eq_true hcurrent, rfl⟩

/-! ### Where the UUID goes by the user

In such a table the rows of one user are current together, so no row follows a stale one of its
user. Only the lookup left out for uid `-1` matters. -/

/-- A lookup that is not made does not matter. -/
theorem readRow_congr {f g : ℤ → String} {st : ReadState} {r : EigenRow}
    (h : st.oldUid = r.uid ∨ f r.uid = g r.uid) : readRow f st r = readRow g st r := by
  unfold readRow
  rcases h with h | h
  · simp [h]
  · simp [h]

/-- On a cursor that starts with uid `-1`, the UUID of that user is never looked up. -/
theorem readRows_congr {f g : ℤ → String} {rows : List EigenRow}
    (hsorted : rows.Pairwise fun r r' => r.key ≤ r'.key)
    (hhead : ∀ r, rows.head? = some r → r.uid = -1) (hfg : ∀ uid, uid ≠ -1 → f uid = g uid) :
    readRows f rows = readRows g rows ∧
      ∀ st, readRows f rows = some st → (∀ r ∈ rows, r.uid = -1) → st.oldUid = -1 := by
  -- by induction on the rows, from the last one
  induction rows using List.reverseRecOn with
  | nil =>
    refine ⟨rfl, fun st hst _ => ?_⟩
    rw [← Option.some.inj hst]
    rfl
  | append_singleton rows r ih =>
    obtain ⟨hinner, -, hle⟩ := List.pairwise_append.mp hsorted
    have hhead' : ∀ r', rows.head? = some r' → r'.uid = -1 := fun r' hr' =>
      hhead r' (by rw [List.head?_append, hr', Option.some_or])
    obtain ⟨heq, hold⟩ := ih hinner hhead'
    rw [readRows_append_singleton, readRows_append_singleton, ← heq]
    constructor
    · cases hst : readRows f rows with
      | none => rfl
      | some st =>
        rw [Option.bind_some, Option.bind_some]
        refine readRow_congr ?_
        by_cases hr : r.uid = -1
        · -- the rows from the head to this one are all of uid `-1`
          refine .inl ((hold st hst fun r' hr' => ?_).trans hr.symm)
          obtain ⟨h, hh⟩ := Option.isSome_iff_exists.mp
            (List.isSome_head?.mpr (List.ne_nil_of_mem hr'))
          have hle' : r'.uid ≤ r.uid := FeatureKey.uid_le (hle r' hr' r (by simp))
          have hge : h.uid ≤ r'.uid := by
            obtain ⟨tail, rfl⟩ : ∃ tail, rows = h :: tail := List.head?_eq_some_iff.mp hh
            rcases List.mem_cons.mp hr' with rfl | hr'
            · exact le_refl _
            · exact FeatureKey.uid_le ((List.pairwise_cons.mp hinner).1 r' hr')
          have := hhead' h hh
          omega
        · exact .inr (hfg r.uid hr)
    · -- as long as all rows are of uid `-1`, no other user is noted
      intro st' hst' hall
      obtain ⟨st, hst, hrow⟩ := Option.bind_eq_some_iff.mp hst'
      have hst₁ := hold st hst fun r' hr' => hall r' (List.mem_append_left _ hr')
      have hr := hall r (by simp)
      rcases (readRow_cases hrow).1 with ⟨heq, -⟩ | ⟨heq, -⟩ <;> omega

/-- With a row its user is noted, and the UUID held is the user's. -/
theorem Notes.meet_of_user {cur : ℤ → String} {q : FeatureQuery} {before : List EigenRow}
    {r : EigenRow} (hsorted : (before ++ [r]).Pairwise fun r r' => r.key ≤ r'.key)
    (hbio : 0 ≤ r.bioType) (hhead : before = [] → r.uid = -1 → cur (-1) = "")
    (huser : ∀ l, before.getLast? = some l →
      (Notes.after cur q before).uid = l.uid ∧ (Notes.after cur q before).uuid = cur l.uid) :
    ((Notes.after cur q before).meet cur r).uid = r.uid ∧
      ((Notes.after cur q before).meet cur r).uuid = cur r.uid := by
  set n := Notes.after cur q before with hn
  cases hl : before.getLast? with
  | none =>
    -- the first row is let through, and its user is looked up unless it is the initial `-1`
    obtain rfl := List.getLast?_eq_none_iff.mp hl
    have hlets : n.lets r = true := by
      simp only [hn, Notes.after_nil, Notes.init, Notes.lets, Bool.or_eq_true, decide_eq_true_eq]
      omega
    rw [Notes.meet, if_pos hlets]
    refine ⟨rfl, ?_⟩
    by_cases hneg : r.uid = -1
    · simp [hn, Notes.init, hneg, hhead rfl hneg]
    · simp [hn, Notes.init, Ne.symm hneg]
  | some l =>
    obtain ⟨hluid, hluuid⟩ := huser l hl
    cases hlets : n.lets r with
    | true =>
      -- a row that is let through has its user looked up, unless that user is noted
      rw [Notes.meet, if_pos hlets]
      refine ⟨rfl, ?_⟩
      by_cases heq : n.uid = r.uid
      · rw [if_pos heq, hluuid, ← hluid, heq]
      · rw [if_neg heq]
    | false =>
      -- one that is not is of the user that is noted
      have hle : l.uid ≤ r.uid := FeatureKey.uid_le <|
        (List.pairwise_append.mp hsorted).2.2 l (List.mem_of_getLast? hl) r (by simp)
      have hnlt : ¬ n.uid < r.uid := by
        intro hlt
        simp [Notes.lets, hlt] at hlets
      have heq : l.uid = r.uid := by omega
      rw [Notes.meet, hlets, if_neg Bool.false_ne_true, hluid, hluuid, heq]
      exact ⟨rfl, rfl⟩

/-- If the UUID goes by the user, such a row is taken for what it is. -/
theorem Notes.tells_of_user {cur stored : ℤ → String} {q : FeatureQuery} {before : List EigenRow}
    {r : EigenRow} (hsorted : (before ++ [r]).Pairwise fun r r' => r.key ≤ r'.key)
    (hwhole : q.columns r = r) (hbio : 0 ≤ r.bioType)
    (huuid : ∀ r' ∈ before ++ [r], r'.uuid = some (stored r'.uid))
    (huser : ∀ l, before.getLast? = some l → (Notes.after cur q before).uid = l.uid)
    (hmeet : ((Notes.after cur q before).meet cur r).uid = r.uid ∧
      ((Notes.after cur q before).meet cur r).uuid = cur r.uid) :
    (Notes.after cur q before).Tells cur q r := by
  have hrow := Notes.after_row cur q before
  set n := Notes.after cur q before with hn
  refine ⟨?_, ?_, ?_⟩
  · -- a row of that user is current exactly if it has the UUID that is held
    rw [hwhole, hmeet.2]
    simp [EigenRow.isCurrent]
  · -- the first row to be compared is let through, as its biotype is not negative
    intro hnone
    rw [hwhole, Notes.lets, hnone]
    simp only [Bool.or_eq_true, decide_eq_true_eq]
    omega
  · -- a current row that is not let through is of the user of the last current one
    intro v hv hcur hlets
    rw [hwhole] at hlets
    have hv' := hrow.symm.trans hv
    have hvmem := (List.mem_filter.mp (List.mem_of_getLast? hv')).1
    refine Notes.lets_of_uid_eq ((List.pairwise_append.mp hsorted).2.2 v hvmem r (by simp))
      hv hlets ?_
    obtain ⟨l, hl⟩ := Option.isSome_iff_exists.mp
      (List.getLast?_isSome.mpr (List.ne_nil_of_mem hvmem))
    -- the row before this one is of its user, hence as current as it is
    have hluid : l.uid = r.uid := by
      have h₁ := hmeet.1
      rw [Notes.meet, hlets, if_neg Bool.false_ne_true, huser l hl] at h₁
      exact h₁
    have hlcur : l.isCurrent cur = true := by
      rw [EigenRow.isCurrent, huuid r (by simp)] at hcur
      rw [EigenRow.isCurrent, huuid l (List.mem_append_left _ (List.mem_of_getLast? hl)), hluid]
      exact hcur
    obtain ⟨init, rfl⟩ := List.getLast?_eq_some_iff.mp hl
    rw [filter_isCurrent_append init hlcur, List.getLast?_concat] at hv'
    rw [← Option.some.inj hv', hluid]

/-- Where the rows of a user are current together, and the UUID of a first user `-1` is empty, the
loop takes every row for what it is. -/
theorem tells_of_uuid {cur stored : ℤ → String} {q : FeatureQuery} {rows : List EigenRow}
    (hsorted : rows.Pairwise fun r r' => r.key ≤ r'.key)
    (hwhole : ∀ r ∈ rows, q.columns r = r) (hbio : ∀ r ∈ rows, 0 ≤ r.bioType)
    (huuid : ∀ r ∈ rows, r.uuid = some (stored r.uid))
    (hhead : ∀ r, rows.head? = some r → r.uid = -1 → cur (-1) = "") {before : List EigenRow}
    (hpre : before <+: rows) :
    (∀ b r, b ++ [r] <+: before → (Notes.after cur q b).Tells cur q r) ∧
      ∀ l, before.getLast? = some l →
        (Notes.after cur q before).uid = l.uid ∧ (Notes.after cur q before).uuid = cur l.uid := by
  -- by induction on the rows, from the last one
  induction before using List.reverseRecOn with
  | nil => simp
  | append_singleton before r ih =>
    obtain ⟨htells, huser⟩ := ih ((List.prefix_append _ _).trans hpre)
    have hr : r ∈ rows := hpre.subset (by simp)
    have hsorted' : (before ++ [r]).Pairwise fun r r' => r.key ≤ r'.key :=
      hsorted.sublist hpre.sublist
    have hmeet := Notes.meet_of_user hsorted' (hbio r hr) (fun hnil => hhead r (by
      obtain ⟨after, rfl⟩ := hpre
      rw [hnil]
      rfl)) huser
    constructor
    · intro b r' hb
      rcases List.prefix_concat_iff.mp hb with heq | hb
      · obtain ⟨rfl, h⟩ := List.append_inj' heq rfl
        obtain rfl := (List.cons.inj h).1
        exact Notes.tells_of_user hsorted' (hwhole _ hr) (hbio _ hr)
          (fun r' hr' => huuid r' (hpre.subset hr')) (fun l hl => (huser l hl).1) hmeet
      · exact htells b r' hb
    · intro l hl
      rw [List.getLast?_concat] at hl
      obtain rfl := Option.some.inj hl
      rw [Notes.after_append, Notes.next, hwhole r hr]
      exact hmeet

/-- Of such rows, read whole, one feature is listed for each key that is current. -/
theorem readRows_of_uuid {cur stored : ℤ → String} {q : FeatureQuery} {rows : List EigenRow}
    (hsorted : rows.Pairwise fun r r' => r.key ≤ r'.key)
    (hwhole : ∀ r ∈ rows, q.columns r = r) (hbio : ∀ r ∈ rows, 0 ≤ r.bioType)
    (huuid : ∀ r ∈ rows, r.uuid = some (stored r.uid))
    (hhead : ∀ r, rows.head? = some r → r.uid = -1 → cur (-1) = "") :
    (readRows cur (rows.map q.columns)).map ReadState.infoList =
      some (featuresOf (rows.filter fun r => r.isCurrent cur)) := by
  have hsome : ∀ r ∈ rows, r.uuid ≠ none := fun r hr => by
    rw [huuid r hr]
    exact Option.some_ne_none _
  obtain ⟨st, hst, h⟩ := readRows_follows hsorted hsome (fun r hr _ => hwhole r hr)
    (List.prefix_refl rows)
    (tells_of_uuid hsorted hwhole hbio huuid hhead (List.prefix_refl rows)).1
  rw [hst, Option.map_some, h.list]

/-- In a table of `int`s in which the UUID goes by the user every row is filed under its key,
whatever is asked for. -/
theorem bioStoGetFeatureInfo_of_uuid (uuidOf : ℤ → String) (db : EigenInfo) (q : FeatureQuery)
    {stored : ℤ → String} (hwhole : ∀ r ∈ db.rows, q.columns r = r)
    (hbio : ∀ r ∈ db.rows, 0 ≤ r.bioType)
    (huuid : ∀ r ∈ db.rows, r.uuid = some (stored r.uid)) :
    ∃ cur, bioStoGetFeatureInfo uuidOf db q =
      some (featuresOf ((selectRows db q).filter fun r => r.isCurrent cur)) := by
  set rows := selectRows db q with hrows
  have hmem : ∀ r ∈ rows, r ∈ db.rows := fun r hr => (mem_selectRows.mp hr).1
  have hsorted : rows.Pairwise fun r r' => r.key ≤ r'.key := selectRows_sorted db q
  -- every row is read as it is
  have hcolumns : rows.map q.columns = rows := by
    rw [List.map_congr_left fun r hr => hwhole r (hmem r hr), List.map_id']
  have hread := fun cur : ℤ → String => @readRows_of_uuid cur _ _ _ hsorted
    (fun r hr => hwhole r (hmem r hr)) (fun r hr => hbio r (hmem r hr))
    fun r hr => huuid r (hmem r hr)
  rw [hcolumns] at hread
  rw [bioStoGetFeatureInfo, ← hrows, hcolumns]
  by_cases hhead : ∀ r, rows.head? = some r → r.uid = -1
  · -- the first row is one of uid -1, for which the look-up is skipped
    refine ⟨Function.update uuidOf (-1) "", ?_⟩
    rw [(readRows_congr hsorted hhead fun uid hne => (Function.update_of_ne hne _ _).symm).1]
    exact hread _ fun _ _ _ => Function.update_self _ _ _
  · push Not at hhead
    obtain ⟨h, hh, hne⟩ := hhead
    -- another user comes first, and is looked up
    exact ⟨uuidOf, hread _ fun r hr huid => absurd
      ((congrArg EigenRow.uid (Option.some.inj (hh.symm.trans hr))).trans huid) hne⟩

end BiometricAuth
