import BiometricAuth.Storage.Reader

/-!
# What the reader is for, and when it does it

The documented result of `bio_sto_get_feature_info` is `currentFeatures`: of the
rows the filter selects, those carrying the current UUID of their user, sorted
and put together by feature. The loop over the cursor (`readRows`) goes by less than the rows
themselves (`Notes`): the uid it has noted last, the UUID it has looked up for that uid, and the
row it has opened the last feature with. `ReadsTrue` says on the cursor when that is enough:

* every current row comes through `sqlite3_column_int` whole;
* the UUID noted is that of a row exactly if the row is current. It is not when the cursor starts
  with uid `-1`, which `old_uid` starts out as, so that the UUID of that user is never looked up;
* a row that the test does not let through is compared with some row, and belongs to the feature
  of that row if it is current. It does not when the row before it is a stale row of its user: the
  uid has been noted then without a feature being opened, and the remaining `old_*` variables are
  those of another user.

Main results:

* `readRows_follows`: along such a cursor the loop carries the grouped prefix;
* `readRows_of_readsTrue`, `told_of_readRows`: the loop ends with the documented list exactly along
  such a cursor;
* `exists_row_of_mem_features`: what is listed comes from selected rows, whatever the cursor.
-/

namespace BiometricAuth

/-! ### The documented result -/

/-- A row carries the current UUID of its user. -/
def EigenRow.isCurrent (uuidOf : ℤ → String) (r : EigenRow) : Bool :=
  r.uuid = some (uuidOf r.uid)

/-- Rows of one feature are current together. -/
theorem EigenRow.isCurrent_congr (uuidOf : ℤ → String) {r r' : EigenRow} (h : r.key = r'.key) :
    r.isCurrent uuidOf = r'.isCurrent uuidOf := by
  obtain ⟨huid, huuid, -⟩ := EigenRow.key_eq_iff.mp h
  rw [EigenRow.isCurrent, EigenRow.isCurrent, huid, huuid]

/-- The feature made of the rows of one key. -/
def featureOf (g : FeatureKey × List EigenRow) : FeatureInfo where
  uid := g.1.uid
  biotype := g.1.bioType
  driver := g.1.driver
  index := g.1.eigenIndex
  indexName := (g.2.head?.map EigenRow.eigenIndexName).getD ""
  samples := g.2.map EigenRow.toSample

/-- The features of a list of rows: one per distinct key. -/
def featuresOf (rows : List EigenRow) : List FeatureInfo :=
  (Grouping.groups EigenRow.key rows).map featureOf

theorem featuresOf_length_le (rows : List EigenRow) : (featuresOf rows).length ≤ rows.length := by
  have hkeys : (featuresOf rows).length = (Grouping.keys EigenRow.key rows).length := by
    rw [featuresOf, List.length_map, ← Grouping.groups_map_fst, List.length_map]
  rw [hkeys]
  exact Grouping.keys_length_le EigenRow.key rows

/-- The sample a row stores, its number uncut. -/
def EigenRow.sample (r : EigenRow) : FeatureSample where
  dbid := r.id
  no := r.sampleNo
  data := r.eigenData

/-- The feature the rows of one key store. -/
def storedFeature (g : FeatureKey × List EigenRow) : FeatureInfo :=
  { featureOf g with samples := g.2.map EigenRow.sample }

/-- What the reader is documented to return: the rows that satisfy the filter
and carry the current UUID of their user, sorted and grouped by feature. -/
def currentFeatures (uuidOf : ℤ → String) (db : EigenInfo) (q : FeatureQuery) :
    List FeatureInfo :=
  (Grouping.groups EigenRow.key <|
    (db.rows.filter fun r => q.selects r && r.isCurrent uuidOf).insertionSort
      fun r r' => r.sortKey ≤ r'.sortKey).map storedFeature

/-- The rows of the documented result, in its order. -/
def currentRows (uuidOf : ℤ → String) (db : EigenInfo) (q : FeatureQuery) : List EigenRow :=
  (selectRows db q).filter fun r => r.isCurrent uuidOf

theorem mem_currentRows {uuidOf : ℤ → String} {db : EigenInfo} {q : FeatureQuery} {r : EigenRow} :
    r ∈ currentRows uuidOf db q ↔
      r ∈ db.rows ∧ q.selects r = true ∧ r.isCurrent uuidOf = true := by
  rw [currentRows, List.mem_filter, mem_selectRows, and_assoc]

theorem currentRows_sorted (uuidOf : ℤ → String) (db : EigenInfo) (q : FeatureQuery) :
    (currentRows uuidOf db q).Pairwise fun r r' => r.key ≤ r'.key :=
  (selectRows_sorted db q).sublist List.filter_sublist

/-- Dropping the stale rows after the sort gives the same result. -/
theorem currentFeatures_eq (uuidOf : ℤ → String) (db : EigenInfo) (q : FeatureQuery) :
    currentFeatures uuidOf db q =
      (Grouping.groups EigenRow.key (currentRows uuidOf db q)).map storedFeature := by
  have : Std.Total fun r r' : EigenRow => r.sortKey ≤ r'.sortKey := ⟨fun _ _ => le_total _ _⟩
  have : IsTrans EigenRow fun r r' => r.sortKey ≤ r'.sortKey := ⟨fun _ _ _ => le_trans⟩
  rw [currentRows, selectRows, Grouping.filter_insertionSort, List.filter_filter, currentFeatures]
  simp only [Bool.and_comm]

theorem EigenRow.toSample_eq_sample {r : EigenRow} (h : IsCInt r.sampleNo) :
    r.toSample = r.sample := by
  rw [EigenRow.toSample, columnInt_of_isCInt h, EigenRow.sample]

/-- Of rows with numbers of type `int` the features are the stored ones. -/
theorem storedFeatures_eq {rows : List EigenRow} (h : ∀ r ∈ rows, IsCInt r.sampleNo) :
    (Grouping.groups EigenRow.key rows).map storedFeature = featuresOf rows := by
  refine List.map_congr_left fun g hg => ?_
  have hsamples : g.2.map EigenRow.sample = g.2.map EigenRow.toSample := by
    refine List.map_congr_left fun r hr => (EigenRow.toSample_eq_sample (h r ?_)).symm
    rw [((Grouping.mem_groups EigenRow.key).mp hg).2] at hr
    exact (List.mem_filter.mp hr).1
  rw [storedFeature, hsamples]
  rfl

/-! ### What the loop goes by -/

/-- What decides about the next row of a cursor. -/
structure Notes where
  /-- The uid noted last (`old_uid`). -/
  uid : ℤ
  /-- The UUID looked up for it (`user_uuid`). -/
  uuid : String
  /-- The last current row, `none` before the first. -/
  row : Option EigenRow

namespace Notes

/-- Before the first row uid `-1` counts as noted, and nothing has been looked up. -/
def init : Notes := ⟨-1, "", none⟩

/-- The test of the loop lets a row through: its uid or biotype is larger than the one noted, its
driver or UUID another, or its index larger. -/
def lets (n : Notes) (r : EigenRow) : Bool :=
  decide (n.uid < r.uid) ||
    match n.row with
    | none => decide (-1 < r.bioType)
    | some v => decide (v.bioType < r.bioType ∨ v.driver ≠ r.driver ∨
        v.eigenIndex < r.eigenIndex ∨ v.uuid ≠ r.uuid)

/-- The uid of a row that is let through is noted, and its UUID looked up if the uid is new. -/
def meet (uuidOf : ℤ → String) (n : Notes) (r : EigenRow) : Notes :=
  if n.lets r then
    { n with uid := r.uid, uuid := if n.uid = r.uid then n.uuid else uuidOf r.uid }
  else n

/-- The notes after one more row. -/
def next (uuidOf : ℤ → String) (q : FeatureQuery) (n : Notes) (r : EigenRow) : Notes :=
  { n.meet uuidOf (q.columns r) with row := if r.isCurrent uuidOf then some r else n.row }

/-- The notes after some rows. -/
def after (uuidOf : ℤ → String) (q : FeatureQuery) (rows : List EigenRow) : Notes :=
  rows.foldl (next uuidOf q) init

/-- By these notes the row is taken for what it is. -/
structure Tells (uuidOf : ℤ → String) (q : FeatureQuery) (n : Notes) (r : EigenRow) : Prop where
  /-- The UUID noted is that of the row exactly if the row is current. -/
  lookup : r.uuid = some (n.meet uuidOf (q.columns r)).uuid ↔ r.isCurrent uuidOf = true
  /-- Before the first current row every row is let through: there is nothing to compare it
  with. -/
  compared : n.row = none → n.lets (q.columns r) = true
  /-- A current row that is not let through is of the feature of the last current row. -/
  filed : ∀ v, n.row = some v → r.isCurrent uuidOf = true → n.lets (q.columns r) = false →
    v.key = r.key

end Notes

/-- The columns of a row come through `sqlite3_column_int` whole. -/
def FeatureQuery.ReadsWhole (q : FeatureQuery) (r : EigenRow) : Prop :=
  q.columns r = r ∧ IsCInt r.sampleNo

/-- Up to the first current row, a row whose uid is no larger than the one before (`-1` at the
start) is not read with a negative biotype. Nothing is compared with the `NULL` of `old_driver`
then. -/
def Starts (uuidOf : ℤ → String) (q : FeatureQuery) (rows : List EigenRow) : Prop :=
  ∀ before r, before ++ [r] <+: rows → (∀ r' ∈ before, r'.isCurrent uuidOf = false) →
    (before.getLast?.map EigenRow.uid).getD (-1) < r.uid ∨ 0 ≤ (q.columns r).bioType

/-- The cursors on which the loop does what it is documented to do. -/
structure ReadsTrue (uuidOf : ℤ → String) (q : FeatureQuery) (rows : List EigenRow) : Prop where
  /-- Every current row comes through whole. -/
  whole : ∀ r ∈ rows, r.isCurrent uuidOf = true → q.ReadsWhole r
  /-- Every row is taken for what it is. -/
  told : ∀ before r, before ++ [r] <+: rows → (Notes.after uuidOf q before).Tells uuidOf q r

/-! ### The loop invariant -/

section Loop

variable {uuidOf : ℤ → String} {q : FeatureQuery} {n : Notes} {before rows : List EigenRow}
  {r : EigenRow} {st : ReadState}

@[simp] theorem Notes.after_nil : Notes.after uuidOf q [] = Notes.init := rfl

@[simp] theorem Notes.after_append : Notes.after uuidOf q (before ++ [r]) =
    (Notes.after uuidOf q before).next uuidOf q r := by
  simp [Notes.after, List.foldl_append]

theorem filter_isCurrent_append_stale (hstale : r.isCurrent uuidOf = false) :
    (before ++ [r]).filter (fun r => r.isCurrent uuidOf) =
      before.filter fun r => r.isCurrent uuidOf := by
  simp [List.filter_append, hstale]

variable (before) in
theorem filter_isCurrent_append (hcurrent : r.isCurrent uuidOf = true) :
    (before ++ [r]).filter (fun r => r.isCurrent uuidOf) =
      (before.filter fun r => r.isCurrent uuidOf) ++ [r] := by
  simp [List.filter_append, hcurrent]

variable (uuidOf q before) in
/-- The row noted is the last current one. -/
theorem Notes.after_row : (Notes.after uuidOf q before).row =
    (before.filter fun r => r.isCurrent uuidOf).getLast? := by
  induction before using List.reverseRecOn with
  | nil => rfl
  | append_singleton before r ih =>
    rw [Notes.after_append]
    cases hcur : r.isCurrent uuidOf with
    | true => simp [Notes.next, hcur, filter_isCurrent_append before hcur]
    | false => simp [Notes.next, Notes.meet, hcur, filter_isCurrent_append_stale hcur, ih]

/-- What the loop has computed after the rows `before`, in terms of its notes. -/
structure Follows (uuidOf : ℤ → String) (n : Notes) (before : List EigenRow)
    (st : ReadState) : Prop where
  /-- The row noted is the last current one. -/
  row : n.row = (before.filter fun r => r.isCurrent uuidOf).getLast?
  /-- The uid and the UUID held are the ones noted. -/
  uid : st.oldUid = n.uid
  uuid : st.userUuid = n.uuid
  /-- Nothing is open before the first current row. -/
  fresh : n.row = none → st.oldBioType = -1 ∧ st.oldDriver = none
  /-- The other variables are those of the last current row. -/
  opened : ∀ v, n.row = some v → st.oldBioType = v.bioType ∧ st.oldDriver = some v.driver ∧
    st.oldIdx = v.eigenIndex ∧ v.uuid = some st.oldUuid
  /-- Right after a current row its uid is the one noted. -/
  user : ∀ l, before.getLast? = some l → l.isCurrent uuidOf = true → n.uid = l.uid
  /-- The list is the grouped prefix. -/
  list : st.infoList = featuresOf (before.filter fun r => r.isCurrent uuidOf)

theorem follows_init (uuidOf : ℤ → String) : Follows uuidOf Notes.init [] ReadState.init where
  row := rfl
  uid := rfl
  uuid := rfl
  fresh := fun _ => ⟨rfl, rfl⟩
  opened := fun _ hrow => absurd hrow.symm (Option.some_ne_none _)
  user := by simp
  list := rfl

/-- The test is the one of the notes; without a row to compare with it crashes. -/
theorem Follows.opensFeature (h : Follows uuidOf n before st) {uuid : String}
    (huuid : r.uuid = some uuid) : st.opensFeature r uuid =
      if n.lets r then some true else if n.row = none then none else some false := by
  unfold ReadState.opensFeature Notes.lets
  cases hrow : n.row with
  | none =>
    obtain ⟨hbio, hdrv⟩ := h.fresh hrow
    simp [h.uid, hbio, hdrv]
  | some v =>
    obtain ⟨hbio, hdrv, hidx, hold⟩ := h.opened v hrow
    rw [h.uid, hbio, hdrv, hidx, huuid]
    by_cases hnew : n.uid < r.uid ∨ v.bioType < r.bioType
    · rcases hnew with hnew | hnew <;> simp [hnew]
    · rw [not_or] at hnew
      simp only [hnew.1, hnew.2, hold, or_self, if_false, decide_false, Bool.false_or, false_or,
        ne_eq, Option.some.injEq, reduceCtorEq]
      cases decide (¬v.driver = r.driver ∨ v.eigenIndex < r.eigenIndex ∨ ¬st.oldUuid = uuid) <;>
        rfl

/-- The UUID held against a row that is let through is the one noted with it. -/
theorem Follows.lookup_eq (h : Follows uuidOf n before st) (hlets : n.lets r = true) :
    st.lookup uuidOf r = (n.meet uuidOf r).uuid := by
  rw [ReadState.lookup, Notes.meet, if_pos hlets, h.uid, h.uuid, ite_not]

/-! #### Keys along a sorted cursor -/

theorem featuresOf_append_new {rows : List EigenRow} {r : EigenRow}
    (h : ∀ r' ∈ rows, r'.key ≠ r.key) :
    featuresOf (rows ++ [r]) = featuresOf rows ++ [r.toFeature] := by
  rw [featuresOf, Grouping.groups_append_new _ h, List.map_append]
  rfl

theorem featuresOf_append_last {rows : List EigenRow} {r v : EigenRow}
    (hsorted : rows.Pairwise fun r r' => r.key ≤ r'.key) (hv : rows.getLast? = some v)
    (hkey : v.key = r.key) :
    appendSample (featuresOf rows) r.toSample = some (featuresOf (rows ++ [r])) := by
  obtain ⟨rows', rfl⟩ := List.getLast?_eq_some_iff.mp hv
  obtain ⟨gs, l, hgs⟩ := Grouping.groups_eq_append_of_sorted EigenRow.key hsorted
  rw [hkey] at hgs
  have hl : l ≠ [] := Grouping.ne_nil_of_mem_groups EigenRow.key
    (l := rows' ++ [v]) (g := (r.key, l)) (by rw [hgs]; simp)
  obtain ⟨a, l', rfl⟩ := List.exists_cons_of_ne_nil hl
  rw [featuresOf, featuresOf, Grouping.groups_append_last EigenRow.key hgs, hgs]
  simp [appendSample, featureOf]

/-- The current row that a key comes from is the last one. -/
theorem key_ne_of_last_key_ne {v : EigenRow}
    (hsorted : (before ++ [r]).Pairwise fun r r' => r.key ≤ r'.key)
    (hv : (before.filter fun r => r.isCurrent uuidOf).getLast? = some v) (hne : v.key ≠ r.key) :
    ∀ b ∈ before.filter fun r => r.isCurrent uuidOf, b.key ≠ r.key := by
  obtain ⟨init, hinit⟩ := List.getLast?_eq_some_iff.mp hv
  have hsub : ((before.filter fun r => r.isCurrent uuidOf) ++ [r]).Pairwise
      fun r r' => r.key ≤ r'.key :=
    hsorted.sublist (List.filter_sublist.append (List.Sublist.refl _))
  rw [hinit] at hsub ⊢
  intro b hb heq
  obtain ⟨hinner, -, hlast⟩ := List.pairwise_append.mp hsub
  rcases List.mem_append.mp hb with hb | hb
  · have hbv : b.key ≤ v.key := (List.pairwise_append.mp hinner).2.2 b hb v (by simp)
    exact hne (le_antisymm (hlast v (by simp) r (by simp)) (heq ▸ hbv))
  · obtain rfl := List.mem_singleton.mp hb
    exact hne heq

/-- Between a row and the last current row of its feature no row lies. -/
theorem getLast_of_last_key_eq {v : EigenRow}
    (hsorted : (before ++ [r]).Pairwise fun r r' => r.key ≤ r'.key)
    (hv : (before.filter fun r => r.isCurrent uuidOf).getLast? = some v) (hkey : v.key = r.key) :
    before.getLast? = some v := by
  obtain ⟨hvmem, hvcur⟩ := List.mem_filter.mp (List.mem_of_getLast? hv)
  obtain ⟨l, hl⟩ := Option.isSome_iff_exists.mp
    (List.getLast?_isSome.mpr (List.ne_nil_of_mem hvmem))
  obtain ⟨init, rfl⟩ := List.getLast?_eq_some_iff.mp hl
  obtain ⟨hinner, -, hlast⟩ := List.pairwise_append.mp hsorted
  have hlr : l.key ≤ r.key := hlast l (by simp) r (by simp)
  have hvl : v.key ≤ l.key := by
    rcases List.mem_append.mp hvmem with hm | hm
    · exact (List.pairwise_append.mp hinner).2.2 v hm l (by simp)
    · rw [List.mem_singleton.mp hm]
  -- the row right before `r` has the key of both, so it is current and the last one
  have hcur : l.isCurrent uuidOf = true := by
    rw [EigenRow.isCurrent_congr uuidOf (le_antisymm (hkey ▸ hlr) hvl), hvcur]
  rw [filter_isCurrent_append init hcur, List.getLast?_concat] at hv
  rw [List.getLast?_concat, hv]

/-! #### The four ways past a row -/

/-- A current row that is let through has a new key. -/
theorem Follows.key_ne (h : Follows uuidOf n before st)
    (hsorted : (before ++ [r]).Pairwise fun r r' => r.key ≤ r'.key) (hlets : n.lets r = true) :
    ∀ b ∈ before.filter fun r => r.isCurrent uuidOf, b.key ≠ r.key := by
  cases hv : (before.filter fun r => r.isCurrent uuidOf).getLast? with
  | none => simp [List.getLast?_eq_none_iff.mp hv]
  | some v =>
    refine key_ne_of_last_key_ne hsorted hv fun hkey => ?_
    obtain ⟨hvuid, hvuuid, hvbio, hvdrv, hvidx⟩ := EigenRow.key_eq_iff.mp hkey
    have huser := h.user v (getLast_of_last_key_eq hsorted hv hkey)
      (List.mem_filter.mp (List.mem_of_getLast? hv)).2
    rw [Notes.lets, h.row, hv] at hlets
    simp [huser, hvuid, hvuuid, hvbio, hvdrv, hvidx] at hlets

/-- It opens a feature. -/
theorem Follows.openFeature {uuid : String} (h : Follows uuidOf n before st)
    (hcur : r.isCurrent uuidOf = true) (huuid : r.uuid = some uuid)
    (hnew : ∀ b ∈ before.filter fun r => r.isCurrent uuidOf, b.key ≠ r.key) :
    Follows uuidOf ⟨r.uid, uuid, some r⟩ (before ++ [r])
      { oldUid := r.uid, oldBioType := r.bioType, oldDriver := some r.driver,
        oldIdx := r.eigenIndex, oldUuid := uuid, userUuid := uuid,
        infoList := st.infoList ++ [r.toFeature] } where
  row := by rw [filter_isCurrent_append before hcur, List.getLast?_concat]
  uid := rfl
  uuid := rfl
  fresh := fun hnone => absurd hnone (Option.some_ne_none r)
  opened := by
    rintro v ⟨⟩
    exact ⟨rfl, rfl, rfl, huuid⟩
  user := by
    intro l hl _
    rw [List.getLast?_concat] at hl
    rw [Option.some.inj hl]
  list := by rw [filter_isCurrent_append before hcur, featuresOf_append_new hnew, ← h.list]

/-- A current row that is not let through, but has the key of the last one, is a further sample. -/
theorem Follows.appendSample {v : EigenRow} (h : Follows uuidOf n before st)
    (hsorted : (before ++ [r]).Pairwise fun r r' => r.key ≤ r'.key)
    (hcur : r.isCurrent uuidOf = true) (hv : n.row = some v) (hkey : v.key = r.key) :
    ∃ infos, BiometricAuth.appendSample st.infoList r.toSample = some infos ∧
      Follows uuidOf { n with row := some r } (before ++ [r]) { st with infoList := infos } := by
  have hrow := h.row.symm.trans hv
  -- the last group of the list has its key
  have happ := featuresOf_append_last
    ((List.pairwise_append.mp hsorted).1.sublist List.filter_sublist) hrow hkey
  rw [← h.list] at happ
  -- which means all five columns
  obtain ⟨hvuid, hvuuid, hvbio, hvdrv, hvidx⟩ := EigenRow.key_eq_iff.mp hkey
  refine ⟨_, happ, ?_⟩
  exact {
    row := by rw [filter_isCurrent_append before hcur, List.getLast?_concat]
    uid := h.uid
    uuid := h.uuid
    fresh := fun hnone => absurd hnone (Option.some_ne_none r)
    -- what the cursor has opened has not changed
    opened := by
      rintro w ⟨⟩
      rw [← hvuuid, ← hvbio, ← hvdrv, ← hvidx]
      exact h.opened v hv
    user := by
      intro l hl _
      -- the last row of the user is the new one
      rw [List.getLast?_concat] at hl
      rw [← Option.some.inj hl, ← hvuid]
      exact h.user v (getLast_of_last_key_eq hsorted hrow hkey)
        (List.mem_filter.mp (List.mem_of_getLast? hrow)).2
    list := by rw [filter_isCurrent_append before hcur] }

/-- Past a stale row at most the uid and its UUID are noted. -/
theorem Follows.skip (h : Follows uuidOf n before st) (hcur : r.isCurrent uuidOf = false)
    (uid : ℤ) (uuid : String) : Follows uuidOf ⟨uid, uuid, n.row⟩ (before ++ [r])
      { st with oldUid := uid, userUuid := uuid } where
  row := by rw [filter_isCurrent_append_stale hcur, h.row]
  uid := rfl
  uuid := rfl
  fresh := h.fresh
  opened := h.opened
  user := by
    intro l hl hlcur
    rw [List.getLast?_concat] at hl
    rw [← Option.some.inj hl, hcur] at hlcur
    cases hlcur
  list := by rw [filter_isCurrent_append_stale hcur, h.list]

/-- **Step lemma.** A row that is taken for what it is moves the invariant past it. -/
theorem Follows.readRow (h : Follows uuidOf n before st)
    (hsorted : (before ++ [r]).Pairwise fun r r' => r.key ≤ r'.key) (huuid : r.uuid ≠ none)
    (hwhole : r.isCurrent uuidOf = true → q.columns r = r) (htell : n.Tells uuidOf q r) :
    ∃ st', BiometricAuth.readRow uuidOf st (q.columns r) = some st' ∧
      Follows uuidOf (n.next uuidOf q r) (before ++ [r]) st' := by
  obtain ⟨uuid, huuid⟩ := Option.ne_none_iff_exists'.mp huuid
  have huuid' : (q.columns r).uuid = some uuid := huuid
  have hopens := h.opensFeature huuid'
  have hlookup := htell.lookup
  rw [huuid, Option.some.injEq] at hlookup
  cases hlets : n.lets (q.columns r) with
  | true =>
    -- the row is let through: its user is looked up, and it opens a feature or is skipped
    rw [if_pos hlets] at hopens
    have hmeet : n.meet uuidOf (q.columns r) =
        ⟨(q.columns r).uid, st.lookup uuidOf (q.columns r), n.row⟩ := by
      rw [h.lookup_eq hlets, Notes.meet, if_pos hlets]
    rw [hmeet] at hlookup
    cases hcur : r.isCurrent uuidOf with
    | true =>
      -- a current row that is let through opens a feature
      have hheld := hlookup.mpr hcur
      have hnext : n.next uuidOf q r = ⟨r.uid, uuid, some r⟩ := by
        rw [Notes.next, hmeet, hcur, if_pos rfl, ← hheld, hwhole hcur]
      rw [hwhole hcur] at hlets hopens hheld ⊢
      rw [hnext]
      exact ⟨_, readRow_open huuid hopens hheld,
        h.openFeature hcur huuid (h.key_ne hsorted hlets)⟩
    | false =>
      -- of a stale row only the user is noted
      have hheld : uuid ≠ st.lookup uuidOf (q.columns r) := by
        intro heq
        rw [hlookup.mp heq] at hcur
        cases hcur
      have hnext : n.next uuidOf q r =
          ⟨(q.columns r).uid, st.lookup uuidOf (q.columns r), n.row⟩ := by
        rw [Notes.next, hmeet, hcur, if_neg Bool.false_ne_true]
      rw [hnext]
      exact ⟨_, readRow_skip huuid' hopens hheld, h.skip hcur _ _⟩
  | false =>
    -- it is not let through, so it has been compared with a current row before it
    obtain ⟨v, hv⟩ : ∃ v, n.row = some v := by
      refine Option.ne_none_iff_exists'.mp fun hnone => ?_
      rw [htell.compared hnone] at hlets
      cases hlets
    have hmeet : n.meet uuidOf (q.columns r) = n := by
      rw [Notes.meet, hlets, if_neg Bool.false_ne_true]
    rw [hlets, hv, if_neg Bool.false_ne_true, if_neg (Option.some_ne_none v)] at hopens
    rw [hmeet, ← h.uuid] at hlookup
    cases hcur : r.isCurrent uuidOf with
    | true =>
      -- a current row that is not let through is a further sample of the last feature
      obtain ⟨infos, happ, hfollows⟩ :=
        h.appendSample hsorted hcur hv (htell.filed v hv hcur hlets)
      have hstep := readRow_append uuidOf huuid' hopens (hlookup.mpr hcur)
      rw [hwhole hcur, happ, Option.map_some] at hstep
      refine ⟨_, by rw [hwhole hcur]; exact hstep, ?_⟩
      rw [Notes.next, hmeet, hcur, if_pos rfl]
      exact hfollows
    | false =>
      -- a stale row that is not let through leaves no trace
      have hstale : uuid ≠ st.userUuid := by
        intro heq
        rw [hlookup.mp heq] at hcur
        cases hcur
      refine ⟨st, readRow_stay uuidOf huuid' hopens hstale, ?_⟩
      have hskip := h.skip hcur n.uid n.uuid
      rw [← h.uid, ← h.uuid] at hskip
      rw [Notes.next, hmeet, hcur, if_neg Bool.false_ne_true, ← h.uid, ← h.uuid]
      exact hskip

/-- **Run lemma.** While every row is taken for what it is the loop carries the grouped prefix. -/
theorem readRows_follows (hsorted : rows.Pairwise fun r r' => r.key ≤ r'.key)
    (huuid : ∀ r ∈ rows, r.uuid ≠ none)
    (hwhole : ∀ r ∈ rows, r.isCurrent uuidOf = true → q.columns r = r) (hpre : before <+: rows)
    -- what was listed before is a sample of one of the earlier rows
    (htold : ∀ b r, b ++ [r] <+: before → (Notes.after uuidOf q b).Tells uuidOf q r) :
    ∃ st, readRows uuidOf (before.map q.columns) = some st ∧
      Follows uuidOf (Notes.after uuidOf q before) before st := by
  induction before using List.reverseRecOn with
  | nil => exact ⟨_, rfl, follows_init uuidOf⟩
  | append_singleton before r ih =>
    obtain ⟨st, hst, h⟩ := ih ((List.prefix_append _ _).trans hpre)
      fun b r' hb => htold b r' (hb.trans (List.prefix_append _ _))
    have hr : r ∈ rows := hpre.subset (by simp)
    obtain ⟨st', hst', h'⟩ := h.readRow (hsorted.sublist hpre.sublist) (huuid r hr)
      (hwhole r hr) (htold before r (List.prefix_refl _))
    refine ⟨st', ?_, by rwa [Notes.after_append]⟩
    rw [List.map_append, List.map_singleton, readRows_append_singleton, hst, Option.bind_some,
      hst']

end Loop

/-! ### Samples stay where they were filed -/

/-- The sample `dbid` is listed under a feature of user `uid`. -/
def Files (infos : List FeatureInfo) (uid : ℤ) (dbid : ℕ) : Prop :=
  ∃ info ∈ infos, info.uid = uid ∧ ∃ s ∈ info.samples, s.dbid = dbid

section Files

variable {infos infos' : List FeatureInfo} {uid : ℤ} {dbid : ℕ}

theorem Files.append (h : Files infos uid dbid) (l : List FeatureInfo) :
    Files (infos ++ l) uid dbid := by
  obtain ⟨info, hinfo, h⟩ := h
  exact ⟨info, List.mem_append_left _ hinfo, h⟩

theorem Files.appendSample {s : FeatureSample} (h : Files infos uid dbid)
    (happ : BiometricAuth.appendSample infos s = some infos') : Files infos' uid dbid := by
  unfold BiometricAuth.appendSample at happ
  cases hl : infos.getLast? with
  | none => simp [hl] at happ
  | some last =>
    obtain ⟨init, rfl⟩ := List.getLast?_eq_some_iff.mp hl
    obtain rfl : init ++ [{ last with samples := last.samples ++ [s] }] = infos' := by
      simpa using happ
    obtain ⟨info, hinfo, huid, s', hs', hid⟩ := h
    rcases List.mem_append.mp hinfo with hinfo | hinfo
    · exact ⟨info, List.mem_append_left _ hinfo, huid, s', hs', hid⟩
    · obtain rfl := List.mem_singleton.mp hinfo
      exact ⟨_, List.mem_append_right _ (List.mem_singleton_self _), huid, s',
        List.mem_append_left _ hs', hid⟩

/-- The appended sample is filed under the last feature. -/
theorem files_of_appendSample {s : FeatureSample} {last : FeatureInfo}
    (hlast : infos.getLast? = some last)
    (happ : appendSample infos s = some infos') : Files infos' last.uid s.dbid := by
  rw [appendSample, hlast] at happ
  obtain rfl := Option.some.inj happ
  exact ⟨_, List.mem_append_right _ (List.mem_singleton_self _), rfl, s, by simp, rfl⟩

/-- Nothing else is new after it. -/
theorem eq_or_files_of_appendSample {s : FeatureSample}
    (happ : appendSample infos s = some infos') (h : Files infos' uid dbid) :
    s.dbid = dbid ∨ Files infos uid dbid := by
  unfold appendSample at happ
  cases hl : infos.getLast? with
  | none => simp [hl] at happ
  | some last =>
    obtain ⟨init, rfl⟩ := List.getLast?_eq_some_iff.mp hl
    obtain rfl : init ++ [{ last with samples := last.samples ++ [s] }] = infos' := by
      simpa using happ
    obtain ⟨info, hinfo, huid, s', hs', hid⟩ := h
    rcases List.mem_append.mp hinfo with hinfo | hinfo
    · exact .inr ⟨info, List.mem_append_left _ hinfo, huid, s', hs', hid⟩
    · obtain rfl := List.mem_singleton.mp hinfo
      rcases List.mem_append.mp hs' with hs' | hs'
      · exact .inr ⟨last, by simp, huid, s', hs', hid⟩
      · rw [List.mem_singleton.mp hs'] at hid
        exact .inl hid

/-- No later row moves a sample. -/
theorem Files.readRow {uuidOf : ℤ → String} {st st' : ReadState} {r : EigenRow}
    (h : Files st.infoList uid dbid) (hrow : BiometricAuth.readRow uuidOf st r = some st') :
    Files st'.infoList uid dbid := by
  rcases readRow_infoList hrow with heq | heq | happ
  · rwa [heq]
  · rw [heq]
    exact h.append _
  · exact h.appendSample happ

theorem Files.readRows {uuidOf : ℤ → String} {st st' : ReadState} {rows : List EigenRow}
    (h : Files st.infoList uid dbid)
    (hrows : rows.foldlM (BiometricAuth.readRow uuidOf) st = some st') :
    Files st'.infoList uid dbid := by
  induction rows generalizing st with
  | nil =>
    obtain rfl := Option.some.inj hrows
    exact h
  | cons r rows ih =>
    rw [List.foldlM_cons] at hrows
    obtain ⟨st₁, hrow, hrows⟩ := Option.bind_eq_some_iff.mp hrows
    exact ih (h.readRow hrow) hrows

/-- And a row files its own sample only. -/
theorem exists_row_or_files_of_readRows {uuidOf : ℤ → String} {st st' : ReadState}
    {rows : List EigenRow} (hrows : rows.foldlM (BiometricAuth.readRow uuidOf) st = some st')
    (h : Files st'.infoList uid dbid) : (∃ r ∈ rows, r.id = dbid) ∨ Files st.infoList uid dbid := by
  induction rows generalizing st with
  | nil =>
    -- nothing was read
    obtain rfl := Option.some.inj hrows
    exact .inr h
  | cons r rows ih =>
    rw [List.foldlM_cons] at hrows
    obtain ⟨st₁, hrow, hrows⟩ := Option.bind_eq_some_iff.mp hrows
    rcases ih hrows with ⟨r', hr', hid⟩ | h₁
    · -- a later row has filed it
      exact .inl ⟨r', List.mem_cons_of_mem r hr', hid⟩
    rcases readRow_infoList hrow with heq | heq | happ
    · -- this row was skipped
      exact .inr (heq ▸ h₁)
    · -- this row opens a feature, which has its own sample only
      rw [heq] at h₁
      obtain ⟨info, hinfo, huid, s, hs, hid⟩ := h₁
      rcases List.mem_append.mp hinfo with hinfo | hinfo
      · exact .inr ⟨info, hinfo, huid, s, hs, hid⟩
      · rw [List.mem_singleton.mp hinfo] at hs
        rw [List.mem_singleton.mp hs] at hid
        exact .inl ⟨r, List.mem_cons_self, hid⟩
    · -- this row is appended to the last feature
      rcases eq_or_files_of_appendSample happ h₁ with hid | h
      · exact .inl ⟨r, List.mem_cons_self, hid⟩
      · exact .inr h

/-- What the documented result files comes from a row of that user. -/
theorem exists_row_of_files {rows : List EigenRow} (h : Files (featuresOf rows) uid dbid) :
    ∃ r ∈ rows, r.uid = uid ∧ r.id = dbid := by
  obtain ⟨info, hinfo, rfl, s, hs, rfl⟩ := h
  obtain ⟨g, hg, rfl⟩ := List.mem_map.mp hinfo
  obtain ⟨r, hr, rfl⟩ := List.mem_map.mp hs
  rw [((Grouping.mem_groups EigenRow.key).mp hg).2, List.mem_filter] at hr
  refine ⟨r, hr.1, ?_, rfl⟩
  have hkey : r.key = g.1 := by simpa using hr.2
  rw [← EigenRow.key_uid, hkey]
  rfl

/-- And every row is filed there. -/
theorem exists_group_of_mem {rows : List EigenRow} {r : EigenRow} (h : r ∈ rows) :
    ∃ g ∈ Grouping.groups EigenRow.key rows, g.1 = r.key ∧ r ∈ g.2 := by
  refine ⟨(r.key, rows.filter fun r' => r'.key = r.key), ?_, rfl, ?_⟩
  · exact (Grouping.mem_groups EigenRow.key).mpr
      ⟨(Grouping.mem_keys EigenRow.key).mpr ⟨r, h, rfl⟩, rfl⟩
  · exact List.mem_filter.mpr ⟨h, by simp⟩

theorem files_of_mem {rows : List EigenRow} {r : EigenRow} (h : r ∈ rows) :
    Files (featuresOf rows) r.uid r.id := by
  obtain ⟨g, hg, hkey, hr⟩ := exists_group_of_mem h
  refine ⟨featureOf g, List.mem_map_of_mem hg, ?_, r.toSample, List.mem_map_of_mem hr, rfl⟩
  rw [← EigenRow.key_uid, ← hkey]
  rfl

end Files

/-- The samples of the documented result are the rows it is made of. -/
theorem featuresOf_samples {rows : List EigenRow}
    (hsorted : rows.Pairwise fun r r' => r.key ≤ r'.key) :
    (featuresOf rows).flatMap FeatureInfo.samples = rows.map EigenRow.toSample := by
  conv_rhs => rw [← Grouping.groups_flatMap EigenRow.key hsorted]
  rw [featuresOf, List.flatMap_map, List.map_flatMap]
  rfl

/-- The last documented feature is that of the last row. -/
theorem featuresOf_getLast {rows : List EigenRow} {v : EigenRow}
    (hsorted : rows.Pairwise fun r r' => r.key ≤ r'.key) (hv : rows.getLast? = some v) :
    ∃ info, (featuresOf rows).getLast? = some info ∧ info.uid = v.uid ∧
      info.biotype = v.bioType ∧ info.driver = v.driver ∧ info.index = v.eigenIndex := by
  obtain ⟨rows', rfl⟩ := List.getLast?_eq_some_iff.mp hv
  obtain ⟨gs, l, hgs⟩ := Grouping.groups_eq_append_of_sorted EigenRow.key hsorted
  exact ⟨featureOf (v.key, l), by simp [featuresOf, hgs], rfl, rfl, rfl, rfl⟩

/-! ### What every reading has -/

/-- Appending a sample changes samples only. -/
theorem exists_feature_of_appendSample {infos infos' : List FeatureInfo} {s : FeatureSample}
    (happ : appendSample infos s = some infos') {info : FeatureInfo} (hinfo : info ∈ infos') :
    ∃ info' ∈ infos, info = { info' with samples := info.samples } := by
  unfold appendSample at happ
  cases hl : infos.getLast? with
  | none => simp [hl] at happ
  | some last =>
    obtain ⟨init, rfl⟩ := List.getLast?_eq_some_iff.mp hl
    obtain rfl : init ++ [{ last with samples := last.samples ++ [s] }] = infos' := by
      simpa using happ
    rcases List.mem_append.mp hinfo with hinfo | hinfo
    · exact ⟨info, List.mem_append_left _ hinfo, rfl⟩
    · obtain rfl := List.mem_singleton.mp hinfo
      exact ⟨last, by simp, rfl⟩

/-- Every sample that is listed is that of a row, under whatever feature. -/
theorem exists_row_of_mem_readSamples {uuidOf : ℤ → String} {rows : List EigenRow}
    {st : ReadState} (h : readRows uuidOf rows = some st) :
    ∀ info ∈ st.infoList, ∀ s ∈ info.samples, ∃ r ∈ rows, s = r.toSample := by
  induction rows using List.reverseRecOn generalizing st with
  | nil =>
    obtain rfl := Option.some.inj h
    simp [ReadState.init]
  | append_singleton rows r ih =>
    rw [readRows_append_singleton] at h
    obtain ⟨st₁, hst₁, hrow⟩ := Option.bind_eq_some_iff.mp h
    have hold : ∀ info ∈ st₁.infoList, ∀ s ∈ info.samples, ∃ r' ∈ rows ++ [r], s = r'.toSample := by
      intro info hinfo s hs
      obtain ⟨r', hr', rfl⟩ := ih hst₁ info hinfo s hs
      exact ⟨r', List.mem_append_left _ hr', rfl⟩
    have hnew : ∃ r' ∈ rows ++ [r], r.toSample = r'.toSample := ⟨r, by simp, rfl⟩
    rcases readRow_infoList hrow with heq | heq | happ
    · -- the row is skipped
      rw [heq]
      exact hold
    · -- it opens a feature, with its sample alone
      rw [heq, List.forall_mem_append, List.forall_mem_singleton]
      refine ⟨hold, fun s hs => ?_⟩
      obtain rfl := List.mem_singleton.mp hs
      exact hnew
    · -- it is appended to the last feature, whose other samples were there
      unfold appendSample at happ
      cases hlast : st₁.infoList.getLast? with
      | none => simp [hlast] at happ
      | some last =>
        obtain ⟨init, hinit⟩ := List.getLast?_eq_some_iff.mp hlast
        rw [hinit, List.forall_mem_append, List.forall_mem_singleton] at hold
        rw [hlast, hinit, List.dropLast_concat] at happ
        rw [← Option.some.inj happ, List.forall_mem_append, List.forall_mem_singleton]
        exact ⟨hold.1, List.forall_mem_append.mpr ⟨hold.2, List.forall_mem_singleton.mpr hnew⟩⟩

/-- A row the loop can open a feature with: it carries the current UUID of its user, or it is of uid
`-1`, whose UUID may never be looked up, and carries none. -/
def EigenRow.isListed (uuidOf : ℤ → String) (r : EigenRow) : Bool :=
  r.isCurrent uuidOf || decide (r.uid = -1 ∧ r.uuid = some "")

/-- Along a cursor the loop holds the current UUID of the user, and every feature is one that a row
that can be listed opens. -/
theorem exists_row_of_mem_readRows {uuidOf : ℤ → String} {rows : List EigenRow} {st : ReadState}
    (h : readRows uuidOf rows = some st) :
    (st.userUuid = uuidOf st.oldUid ∨ st.oldUid = -1 ∧ st.userUuid = "") ∧
      ∀ info ∈ st.infoList, ∃ r ∈ rows, r.isListed uuidOf = true ∧
        info = { r.toFeature with samples := info.samples } := by
  induction rows using List.reverseRecOn generalizing st with
  | nil =>
    obtain rfl := Option.some.inj h
    exact ⟨.inr ⟨rfl, rfl⟩, by simp [ReadState.init]⟩
  | append_singleton rows r ih =>
    rw [readRows_append_singleton] at h
    obtain ⟨st₁, hst₁, hrow⟩ := Option.bind_eq_some_iff.mp h
    obtain ⟨huser, hlisted⟩ := ih hst₁
    -- what was listed before was opened by one of the earlier rows
    have hold : ∀ info ∈ st₁.infoList, ∃ r' ∈ rows ++ [r], r'.isListed uuidOf = true ∧
        info = { r'.toFeature with samples := info.samples } := by
      intro info hinfo
      obtain ⟨r', hr', hheader⟩ := hlisted info hinfo
      exact ⟨r', by simp [hr'], hheader⟩
    obtain ⟨huser', hlist⟩ := readRow_cases hrow
    -- the UUID that is held changes with the user that is noted
    have huuid : st.userUuid = uuidOf st.oldUid ∨ st.oldUid = -1 ∧ st.userUuid = "" := by
      rcases huser' with ⟨holdUid, huserUuid⟩ | ⟨holdUid, huserUuid⟩
      · rwa [holdUid, huserUuid]
      · exact .inl (by rw [huserUuid, holdUid])
    refine ⟨huuid, ?_⟩
    rcases hlist with heq | ⟨heq, huid, hcurrent⟩ | happ
    · rw [heq]
      exact hold
    · -- only the feature that the row opens is new
      intro info hinfo
      rw [heq, List.mem_append, List.mem_singleton] at hinfo
      rcases hinfo with hinfo | rfl
      · exact hold info hinfo
      · refine ⟨r, by simp, ?_, rfl⟩
        rw [huid] at huuid
        rcases huuid with huuid | ⟨hneg, huuid⟩
        · simp [EigenRow.isListed, EigenRow.isCurrent, hcurrent, huuid]
        · simp [EigenRow.isListed, hcurrent, hneg, huuid]
    · -- a further sample leaves the header of its feature
      intro info hinfo
      obtain ⟨info', hinfo', heq⟩ := exists_feature_of_appendSample happ hinfo
      obtain ⟨r', hr', hlisted, heq'⟩ := hold info' hinfo'
      exact ⟨r', hr', hlisted, by rw [heq, heq']⟩

/-- Every feature of a list is one that a selected row opens, its columns as read. -/
theorem exists_row_of_mem_features {uuidOf : ℤ → String} {db : EigenInfo} {q : FeatureQuery}
    {infos : List FeatureInfo} (h : bioStoGetFeatureInfo uuidOf db q = some infos)
    {info : FeatureInfo} (hinfo : info ∈ infos) :
    ∃ r ∈ db.rows, q.selects r = true ∧ (q.columns r).isListed uuidOf = true ∧
      info = { (q.columns r).toFeature with samples := info.samples } := by
  obtain ⟨st, hst, rfl⟩ := Option.map_eq_some_iff.mp h
  obtain ⟨r', hr', hlisted, hheader⟩ := (exists_row_of_mem_readRows hst).2 info hinfo
  obtain ⟨r, hr, rfl⟩ := List.mem_map.mp hr'
  obtain ⟨hrow, hselects⟩ := mem_selectRows.mp hr
  exact ⟨r, hrow, hselects, hlisted, hheader⟩

/-! ### Exactly when the reader is right -/

section Reader

variable {uuidOf : ℤ → String} {q : FeatureQuery} {rows : List EigenRow}

/-- The documented list is what the loop ends with when the cursor allows it. -/
theorem readRows_of_readsTrue (hsorted : rows.Pairwise fun r r' => r.key ≤ r'.key)
    (huuid : ∀ r ∈ rows, r.uuid ≠ none) (h : ReadsTrue uuidOf q rows) :
    (readRows uuidOf (rows.map q.columns)).map ReadState.infoList =
      some (featuresOf (rows.filter fun r => r.isCurrent uuidOf)) := by
  obtain ⟨st, hst, hfollows⟩ :=
    readRows_follows hsorted huuid (fun r hr hcur => (h.whole r hr hcur).1)
      (List.prefix_refl rows) h.told
  rw [hst, Option.map_some, hfollows.list]

/-- A row that is not let through is no larger than the last current one, and alike otherwise. -/
theorem Notes.lets_eq_false_iff {n : Notes} {r v : EigenRow} (hv : n.row = some v) :
    n.lets r = false ↔ r.uid ≤ n.uid ∧ r.bioType ≤ v.bioType ∧ v.driver = r.driver ∧
      r.eigenIndex ≤ v.eigenIndex ∧ v.uuid = r.uuid := by
  rw [Notes.lets, hv]
  simp only [Bool.or_eq_false_iff, decide_eq_false_iff_not, not_or, not_lt, not_not]

/-- Of two rows of one user and UUID the test tells a later one apart. -/
theorem Notes.lets_of_uid_eq {n : Notes} {r v : EigenRow} (hle : v.key ≤ r.key)
    (hv : n.row = some v) (hlets : n.lets r = false) (huid : v.uid = r.uid) : v.key = r.key := by
  obtain ⟨-, hbio, hdrv, hidx, huuid⟩ := (Notes.lets_eq_false_iff hv).mp hlets
  have htail := FeatureKey.tail_le hle huid huuid
  simp only [EigenRow.key_bioType, EigenRow.key_driver, EigenRow.key_eigenIndex, hdrv,
    lt_self_iff_false, false_or, true_and] at htail
  exact EigenRow.key_eq_iff.mpr ⟨huid, huuid, by omega, hdrv, by omega⟩

/-- What the list at the end says of the next row: it is filed under its own user if it is current,
and not at all if it is not. -/
theorem current_of_files (hids : (rows.map EigenRow.id).Nodup) {st₁ stEnd : ReadState}
    {rest : List EigenRow} {r : EigenRow} {uid : ℤ} (hr : r ∈ rows)
    (hrest : (rest.map q.columns).foldlM (BiometricAuth.readRow uuidOf) st₁ = some stEnd)
    (hlist : stEnd.infoList = featuresOf (rows.filter fun r => r.isCurrent uuidOf))
    (hfiles : Files st₁.infoList uid r.id) : r.isCurrent uuidOf = true ∧ r.uid = uid := by
  have hend := hfiles.readRows hrest
  rw [hlist] at hend
  obtain ⟨r', hr', huid, hid⟩ := exists_row_of_files hend
  obtain rfl := List.inj_on_of_nodup_map hids (List.mem_filter.mp hr').1 hr hid
  exact ⟨(List.mem_filter.mp hr').2, huid⟩

/-- And a current row changes the list. -/
theorem Follows.ne_of_current (hids : (rows.map EigenRow.id).Nodup) {st st₁ stEnd : ReadState}
    {before rest : List EigenRow} {r : EigenRow} (hrows : rows = before ++ r :: rest) {n : Notes}
    (h : Follows uuidOf n before st)
    (hrest : (rest.map q.columns).foldlM (BiometricAuth.readRow uuidOf) st₁ = some stEnd)
    (hlist : stEnd.infoList = featuresOf (rows.filter fun r => r.isCurrent uuidOf))
    (hcur : r.isCurrent uuidOf = true) : st₁.infoList ≠ st.infoList := by
  intro heq
  have hr : r ∈ rows := by rw [hrows]; simp
  have hend := files_of_mem (List.mem_filter.mpr ⟨hr, hcur⟩)
  rw [← hlist] at hend
  rw [hrows, List.map_append, List.map_cons, List.nodup_append, List.nodup_cons] at hids
  -- another row would have to be filed under its `ID`, one after it or one before it
  rcases exists_row_or_files_of_readRows hrest hend with ⟨r', hr', hid⟩ | hfiles
  · obtain ⟨r'', hr'', rfl⟩ := List.mem_map.mp hr'
    exact hids.2.1.1 (List.mem_map.mpr ⟨r'', hr'', hid⟩)
  · rw [heq, h.list] at hfiles
    obtain ⟨r', hr', -, hid⟩ := exists_row_of_files hfiles
    exact hids.2.2 r'.id (List.mem_map_of_mem (List.mem_filter.mp hr').1) r.id
      List.mem_cons_self hid

/-- A loop that ends with the documented list takes the next row for what it is. -/
theorem Follows.tells (hsorted : rows.Pairwise fun r r' => r.key ≤ r'.key)
    (huuid : ∀ r ∈ rows, r.uuid ≠ none)
    (hwhole : ∀ r ∈ rows, r.isCurrent uuidOf = true → q.columns r = r)
    (hids : (rows.map EigenRow.id).Nodup) {st stEnd : ReadState}
    {before rest : List EigenRow} {r : EigenRow} (hrows : rows = before ++ r :: rest)
    {n : Notes} (h : Follows uuidOf n before st)
    (hread : ((r :: rest).map q.columns).foldlM (BiometricAuth.readRow uuidOf) st = some stEnd)
    (hlist : stEnd.infoList = featuresOf (rows.filter fun r => r.isCurrent uuidOf)) :
    n.Tells uuidOf q r := by
  have hr : r ∈ rows := by rw [hrows]; simp
  obtain ⟨uuid, hsome⟩ := Option.ne_none_iff_exists'.mp (huuid r hr)
  have hsome' : (q.columns r).uuid = some uuid := hsome
  rw [List.map_cons, List.foldlM_cons] at hread
  obtain ⟨st₁, hrow, hrest⟩ := Option.bind_eq_some_iff.mp hread
  have hopens := h.opensFeature hsome'
  have hcurrent : ∀ uid, Files st₁.infoList uid r.id → r.isCurrent uuidOf = true ∧ r.uid = uid :=
    fun uid => current_of_files hids hr hrest hlist
  have hlisted : r.isCurrent uuidOf = true → st₁.infoList ≠ st.infoList :=
    h.ne_of_current hids hrows hrest hlist
  cases hlets : n.lets (q.columns r) with
  | true =>
    -- the row is let through, and its UUID is compared with the one of its user
    rw [if_pos hlets] at hopens
    have hlook := h.lookup_eq hlets
    refine ⟨?_, fun _ => hlets, fun v _ _ hno => ?_⟩
    · -- it is current exactly if the UUIDs agree, as only then it opens a feature
      rw [← hlook, hsome, Option.some.injEq]
      constructor
      · intro hheld
        rw [readRow_open hsome' hopens hheld] at hrow
        obtain rfl := Option.some.inj hrow
        exact (hcurrent _ ⟨(q.columns r).toFeature, by simp, rfl, (q.columns r).toSample,
          List.mem_singleton_self _, rfl⟩).1
      · intro hcur
        by_contra hheld
        rw [readRow_skip hsome' hopens hheld] at hrow
        exact hlisted hcur (by rw [← Option.some.inj hrow])
    · rw [hlets] at hno
      cases hno
  | false =>
    rw [hlets, if_neg Bool.false_ne_true] at hopens
    cases hv : n.row with
    | none =>
      -- without a row to compare with, the reader crashes
      rw [hv, if_pos rfl] at hopens
      rw [readRow_crash uuidOf hsome' hopens] at hrow
      cases hrow
    | some v =>
      rw [hv, if_neg (Option.some_ne_none v)] at hopens
      have hmeet : n.meet uuidOf (q.columns r) = n := by
        rw [Notes.meet, hlets, if_neg Bool.false_ne_true]
      have hlastRow := h.row.symm.trans hv
      have hsorted' : (before ++ [r]).Pairwise fun r r' => r.key ≤ r'.key :=
        hsorted.sublist (by rw [hrows]; simp)
      obtain ⟨last, hlast, hlastUid, -⟩ := featuresOf_getLast
        ((List.pairwise_append.mp hsorted').1.sublist List.filter_sublist) hlastRow
      rw [← h.list] at hlast
      -- a row that is appended is filed under the user of the last current row
      have hfiled : uuid = st.userUuid → r.isCurrent uuidOf = true ∧ r.uid = v.uid := by
        intro hheld
        rw [readRow_append uuidOf hsome' hopens hheld] at hrow
        obtain ⟨infos, happ, rfl⟩ := Option.map_eq_some_iff.mp hrow
        rw [← hlastUid]
        exact hcurrent _ (files_of_appendSample hlast happ)
      -- a current row that is not appended would be missing in the list
      have hheld : r.isCurrent uuidOf = true → uuid = st.userUuid := by
        intro hcur
        by_contra hheld
        rw [readRow_stay uuidOf hsome' hopens hheld] at hrow
        exact hlisted hcur (by rw [← Option.some.inj hrow])
      refine ⟨?_, fun hnone => absurd (hv.symm.trans hnone) (Option.some_ne_none v), ?_⟩
      · rw [hmeet, ← h.uuid, hsome, Option.some.injEq]
        exact ⟨fun heq => (hfiled heq).1, hheld⟩
      · -- so the last current row is one of its user
        rintro w hw hcur -
        obtain rfl := Option.some.inj (hv.symm.trans hw)
        rw [hwhole r hr hcur] at hlets
        refine Notes.lets_of_uid_eq ?_ hv hlets (hfiled (hheld hcur)).2.symm
        exact (List.pairwise_append.mp hsorted').2.2 v
          (List.mem_filter.mp (List.mem_of_getLast? hlastRow)).1 r (List.mem_singleton_self r)

/-- A loop that ends with the documented list has taken every row for what it is. -/
theorem told_of_readRows (hsorted : rows.Pairwise fun r r' => r.key ≤ r'.key)
    (huuid : ∀ r ∈ rows, r.uuid ≠ none)
    (hwhole : ∀ r ∈ rows, r.isCurrent uuidOf = true → q.columns r = r)
    (hids : (rows.map EigenRow.id).Nodup)
    (h : (readRows uuidOf (rows.map q.columns)).map ReadState.infoList =
      some (featuresOf (rows.filter fun r => r.isCurrent uuidOf))) :
    ∀ before r, before ++ [r] <+: rows → (Notes.after uuidOf q before).Tells uuidOf q r := by
  obtain ⟨stEnd, hread, hlist⟩ := Option.map_eq_some_iff.mp h
  intro before
  induction hn : before.length using Nat.strong_induction_on generalizing before with
  | _ k ih =>
    rintro r ⟨rest, hrows⟩
    -- up to this row the loop carries the grouped prefix
    have hpre : before <+: rows := ⟨r :: rest, by rw [← hrows, List.append_assoc]; rfl⟩
    obtain ⟨st, hst, hfollows⟩ := readRows_follows hsorted huuid hwhole hpre
      fun b r' hb => ih b.length (by
        have := hb.length_le
        rw [List.length_append, List.length_singleton] at this
        omega) b rfl r' (hb.trans hpre)
    have hrows' : rows = before ++ r :: rest := by rw [← hrows, List.append_assoc]; rfl
    have hread' := hread
    rw [hrows', List.map_append, readRows, List.foldlM_append] at hread'
    obtain ⟨st', hst', hrest⟩ := Option.bind_eq_some_iff.mp hread'
    obtain rfl : st = st' := Option.some.inj (hst.symm.trans hst')
    exact hfollows.tells hsorted huuid hwhole hids hrows' hrest hlist

end Reader

theorem FeatureQuery.columns_eq_self_iff {q : FeatureQuery} {r : EigenRow} :
    q.columns r = r ↔ (q.columns r).uid = r.uid ∧ (q.columns r).bioType = r.bioType ∧
      (q.columns r).eigenIndex = r.eigenIndex := by
  constructor
  · intro h
    rw [h]
    exact ⟨rfl, rfl, rfl⟩
  · obtain ⟨id, uid, uuid, bioType, driver, idx, name, no, data⟩ := r
    rintro ⟨huid, hbio, hidx⟩
    simp only [FeatureQuery.columns] at huid hbio hidx ⊢
    rw [huid, hbio, hidx]

/-- A value that was read comes through a second reading whole. -/
theorem ite_columnInt_of_eq {p : Prop} [Decidable p] {x y : ℤ}
    (h : x = if p then columnInt y else y) : (if p then columnInt x else x) = x := by
  by_cases hp : p
  · rw [if_pos hp] at h ⊢
    rw [h, columnInt_columnInt]
  · exact if_neg hp

/-- The documented list holds current rows that come through whole only. -/
theorem readsWhole_of_currentFeatures {uuidOf : ℤ → String} {db : EigenInfo} {q : FeatureQuery}
    (h : bioStoGetFeatureInfo uuidOf db q = some (currentFeatures uuidOf db q)) {r : EigenRow}
    (hr : r ∈ currentRows uuidOf db q) : q.ReadsWhole r := by
  obtain ⟨g, hg, hkey, hmem⟩ := exists_group_of_mem hr
  have hinfo : storedFeature g ∈ currentFeatures uuidOf db q := by
    rw [currentFeatures_eq]
    exact List.mem_map_of_mem hg
  constructor
  · -- the header of its feature is one of a row as read
    obtain ⟨r', -, -, -, hheader⟩ := exists_row_of_mem_features h hinfo
    have huid : g.1.uid = (q.columns r').uid := congrArg FeatureInfo.uid hheader
    have hbio : g.1.bioType = (q.columns r').bioType := congrArg FeatureInfo.biotype hheader
    have hidx : g.1.eigenIndex = (q.columns r').eigenIndex := congrArg FeatureInfo.index hheader
    rw [hkey] at huid hbio hidx
    exact FeatureQuery.columns_eq_self_iff.mpr
      ⟨ite_columnInt_of_eq huid, ite_columnInt_of_eq hbio, ite_columnInt_of_eq hidx⟩
  · obtain ⟨st, hst, hlist⟩ := Option.map_eq_some_iff.mp h
    rw [← hlist] at hinfo
    obtain ⟨r', -, hsample⟩ :=
      exists_row_of_mem_readSamples hst _ hinfo r.sample (List.mem_map_of_mem hmem)
    have hno : r.sampleNo = columnInt r'.sampleNo := congrArg FeatureSample.no hsample
    rw [hno]
    exact isCInt_columnInt _

end BiometricAuth
