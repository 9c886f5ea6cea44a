import BiometricAuth.Storage.Writer

/-!
# What is written can be read back

A feature that `bio_sto_set_feature_info` has written is listed by `bio_sto_get_feature_info`,
beside what was listed before (`RoundTrips`), as long as the loop of the reader finds its rows
sorted. It does when their numbers are of type `int`. A biotype or an index of more than 32 bits is
sorted by all of them, and read by the lower ones: a row can be **read smaller** than one that is
stored before it. The loop then opens a feature out of order, or takes the row for one of the last
feature.

`Nested` and `FitsBetween` say on the stored keys and the keys as read when nothing of this shows:
the rows that are there make an increasing list, and a written key neither comes behind a row that
is read larger, nor before one that is read smaller and was listed under a smaller key.

Main results:

* `topped_listing`: in an increasing list every row is listed under the largest key read up to it;
* `listing_eq_iff_apart`: new rows are listed beside the old ones exactly if they have their places;
* `bioStoSetFeatureInfo_getFeatureInfo_iff`: so are the features that have been written.
-/

namespace BiometricAuth

/-! ### Lists that are nowhere larger -/

section Lists

variable {α : Type*} [LinearOrder α] {l l' : List α}

theorem countP_le_of_forall₂ (h : List.Forall₂ (· ≤ ·) l l') (t : α) :
    l.countP (t ≤ ·) ≤ l'.countP (t ≤ ·) := by
  induction h with
  | nil => exact le_rfl
  | @cons a b l l' hab _ ih =>
    rw [List.countP_cons, List.countP_cons]
    have : (if decide (t ≤ a) = true then 1 else 0) ≤ if decide (t ≤ b) = true then 1 else 0 := by
      by_cases hta : t ≤ a
      · simp [hta, hta.trans hab]
      · simp [hta]
    omega

/-- A list that is nowhere larger than a rearrangement of it is that rearrangement. -/
theorem eq_of_forall₂_le_of_perm (h : List.Forall₂ (· ≤ ·) l l') (hperm : l.Perm l') : l = l' := by
  have hcount : ∀ t, l.countP (t ≤ ·) = l'.countP (t ≤ ·) := fun t => hperm.countP_eq _
  clear hperm
  induction h with
  | nil => rfl
  | @cons a b l l' hab hl ih =>
    have hparts : ∀ t, (t ≤ b → t ≤ a) ∧ l.countP (t ≤ ·) = l'.countP (t ≤ ·) := by
      intro t
      have hle := countP_le_of_forall₂ hl t
      have ht := hcount t
      rw [List.countP_cons, List.countP_cons] at ht
      by_cases hta : t ≤ a
      · simp only [hta, hta.trans hab, decide_true, if_true] at ht
        exact ⟨fun _ => hta, by omega⟩
      · by_cases htb : t ≤ b
        · simp only [hta, htb, decide_true, decide_false, if_true, if_false,
            Bool.false_eq_true] at ht
          omega
        · simp only [hta, htb, decide_false, if_false, Bool.false_eq_true] at ht
          exact ⟨fun h => absurd h htb, by omega⟩
    rw [le_antisymm hab ((hparts b).1 le_rfl), ih fun t => (hparts t).2]

end Lists
/-! ### What is listed -/

/-- The part of a feature's key that a filter on one user leaves open, and a
sample: biotype, driver, index, sample number and sample data. -/
abbrev Listed := ℤ × String × ℤ × ℤ × Bytes

/-- Everything a list of features lists. -/
def listing (infos : List FeatureInfo) : List Listed :=
  (samplesOf infos).map fun p => (p.1.biotype, p.1.driver, p.1.index, p.2.no, p.2.data)

/-- What a row is listed as. -/
def EigenRow.listed (r : EigenRow) : Listed :=
  (r.bioType, r.driver, r.eigenIndex, columnInt r.sampleNo, r.eigenData)

/-- The filter, on a feature. -/
def FeatureQuery.keeps (q : FeatureQuery) (info : FeatureInfo) : Bool :=
  q.indexStart ≤ info.index ∧ (q.uid = -1 ∨ info.uid = q.uid) ∧
    (q.biotype = -1 ∨ info.biotype = q.biotype) ∧
    (q.driver = none ∨ q.driver = some info.driver) ∧
    (q.indexEnd = -1 ∨ info.index ≤ q.indexEnd)

/-- The numbers of a `feature_info` are of type `int`. -/
structure FeatureInfo.Ints (info : FeatureInfo) : Prop where
  biotype : IsCInt info.biotype
  index : IsCInt info.index
  no : ∀ s ∈ info.samples, IsCInt s.no

/-- The part of a row's key that a query of one user leaves open, in its order. -/
def EigenRow.order (r : EigenRow) : ℤ ×ₗ String ×ₗ ℤ :=
  toLex (r.bioType, toLex (r.driver, r.eigenIndex))

/-- The same part of what is listed. -/
def Listed.order (x : Listed) : ℤ ×ₗ String ×ₗ ℤ := toLex (x.1, toLex (x.2.1, x.2.2.1))

/-- The loop does not tell the row from those of the feature. -/
def FeatureInfo.Covers (last : FeatureInfo) (r : EigenRow) : Prop :=
  r.bioType ≤ last.biotype ∧ last.driver = r.driver ∧ r.eigenIndex ≤ last.index

/-- What a row is listed as under a feature. -/
def FeatureInfo.lists (info : FeatureInfo) (r : EigenRow) : Listed :=
  (info.biotype, info.driver, info.index, columnInt r.sampleNo, r.eigenData)

section Order

variable {r t : EigenRow} {info last : FeatureInfo} {infos : List FeatureInfo}

@[simp] theorem order_toFeature : r.toFeature.order = r.order := rfl

theorem order_eq_iff : r.order = t.order ↔
    r.bioType = t.bioType ∧ r.driver = t.driver ∧ r.eigenIndex = t.eigenIndex := by
  simp [EigenRow.order]

theorem not_covers_iff : ¬ last.Covers r ↔
    last.biotype < r.bioType ∨ last.driver ≠ r.driver ∨ last.index < r.eigenIndex := by
  unfold FeatureInfo.Covers
  rw [not_and_or, not_and_or, not_le, not_le]

theorem order_le_of_covers (h : last.Covers r) : r.order ≤ last.order := by
  obtain ⟨hbio, hdriver, hidx⟩ := h
  rw [EigenRow.order, FeatureInfo.order, Prod.Lex.toLex_le_toLex, hdriver]
  refine hbio.lt_or_eq.imp_right fun heq => ⟨heq, ?_⟩
  rw [Prod.Lex.toLex_le_toLex]
  exact .inr ⟨rfl, hidx⟩

theorem covers_of_order_eq (h : r.order = last.order) : last.Covers r := by
  simp only [EigenRow.order, FeatureInfo.order, EmbeddingLike.apply_eq_iff_eq, Prod.mk.injEq] at h
  exact ⟨h.1.le, h.2.1.symm, h.2.2.le⟩

/-- What is covered goes by the order alone. -/
theorem FeatureInfo.Covers.congr (h : last.Covers r) (horder : last.order = info.order) :
    info.Covers r := by
  simp only [FeatureInfo.order, EmbeddingLike.apply_eq_iff_eq, Prod.mk.injEq] at horder
  obtain ⟨hbio, hdriver, hidx⟩ := h
  exact ⟨hbio.trans horder.1.le, horder.2.1.symm.trans hdriver, hidx.trans horder.2.2.le⟩

@[simp] theorem order_lists : Listed.order (info.lists r) = info.order := rfl

theorem listing_append (l l' : List FeatureInfo) : listing (l ++ l') = listing l ++ listing l' := by
  rw [listing, samplesOf, List.flatMap_append, List.map_append]
  rfl

/-- A row is listed under the feature it opens or under the last one. -/
theorem fileRow_spec (infos : List FeatureInfo) (r : EigenRow) : ∃ info : FeatureInfo,
    info.Covers r ∧ listing (fileRow infos r) = listing infos ++ [info.lists r] ∧
    (fileRow infos r = infos ++ [r.toFeature] ∧ info = r.toFeature ∧
        (∀ last, infos.getLast? = some last → ¬ last.Covers r) ∨
      ∃ init, infos = init ++ [info] ∧
        fileRow infos r = init ++ [{ info with samples := info.samples ++ [r.toSample] }]) := by
  -- a row is covered by the feature it opens
  have hself : r.toFeature.Covers r := covers_of_order_eq rfl
  cases hlast : infos.getLast? with
  | none =>
    -- nothing is listed yet, so it opens one
    obtain rfl := List.getLast?_eq_none_iff.mp hlast
    exact ⟨r.toFeature, hself, rfl, .inl ⟨rfl, rfl, by simp⟩⟩
  | some last =>
    obtain ⟨init, rfl⟩ := List.getLast?_eq_some_iff.mp hlast
    have hrow := fileRow_of_last (r := r) hlast
    rw [List.dropLast_concat] at hrow
    -- the row joins the last feature if that covers it
    by_cases hcovers : last.Covers r
    · rw [if_neg (fun h => not_covers_iff.mpr h hcovers)] at hrow
      refine ⟨last, hcovers, ?_, .inr ⟨init, rfl, hrow⟩⟩
      rw [hrow, listing_append, listing_append, List.append_assoc]
      congr 1
      simp [listing, samplesOf, EigenRow.toSample, FeatureInfo.lists]
    · -- and opens one if not
      rw [if_pos (not_covers_iff.mp hcovers)] at hrow
      refine ⟨r.toFeature, hself, ?_, .inl ⟨hrow, rfl, fun last' h => ?_⟩⟩
      · rw [hrow, listing_append _ [r.toFeature]]
        rfl
      · obtain rfl := Option.some.inj h
        exact hcovers

end Order

/-! ### Rows that are read smaller than rows before them -/

/-- A row that is read smaller than the largest of those stored before it is not told from that
one's. -/
def Nested (q : FeatureQuery) (rows : List EigenRow) : Prop :=
  ∀ r ∈ rows, ∀ m ∈ rows, m.order < r.order →
    (∀ t ∈ rows, t.order < r.order → (q.columns t).order ≤ (q.columns m).order) →
    (q.columns r).order < (q.columns m).order → (q.columns m).toFeature.Covers (q.columns r)

/-- A key, written and read as it is, has its place among the rows: it is found there and takes no
row that is stored behind it. -/
structure FitsBetween (q : FeatureQuery) (rows : List EigenRow) (k : ℤ ×ₗ String ×ₗ ℤ) :
    Prop where
  /-- No row that is stored before the key is read larger. -/
  before : ∀ r ∈ rows, r.order < k → (q.columns r).order ≤ k
  /-- Of the rows up to one that is stored behind the key, one is read at least as large. -/
  behind : ∀ r ∈ rows, k < r.order → ∃ t ∈ rows, t.order ≤ r.order ∧ k ≤ (q.columns t).order

/-- The features of the rows come in increasing order, the last one the largest that was read. -/
structure Climbs (q : FeatureQuery) (before : List EigenRow) : Prop where
  increasing : (fileRows (before.map q.columns)).Pairwise fun f g => f.order < g.order
  top : ∀ last, (fileRows (before.map q.columns)).getLast? = some last →
    ∀ t ∈ before, (q.columns t).order ≤ last.order

/-- The row is listed under a feature that a row stored no later has opened. -/
structure Filed (q : FeatureQuery) (rows : List EigenRow) (r : EigenRow) (x : Listed) : Prop where
  sample : x.2.2.2 = (columnInt r.sampleNo, r.eigenData)
  covered : ∃ info : FeatureInfo, info.Covers (q.columns r) ∧ info.order = Listed.order x
  opened : ∃ t ∈ rows, t.order ≤ r.order ∧ (q.columns t).order = Listed.order x

/-- It is the largest that is read up to there. -/
structure Topped (q : FeatureQuery) (rows : List EigenRow) (r : EigenRow) (x : Listed) : Prop
    extends Filed q rows r x where
  top : ∀ t ∈ rows, t.order ≤ r.order → (q.columns t).order ≤ Listed.order x

section Rows

variable {q : FeatureQuery} {rows before : List EigenRow} {r t : EigenRow}

theorem columns_order_congr (h : t.order = r.order) :
    (q.columns t).order = (q.columns r).order := by
  obtain ⟨hbio, hdriver, hidx⟩ := order_eq_iff.mp h
  simp [order_eq_iff, FeatureQuery.columns, hbio, hdriver, hidx]

theorem Topped.unique {x y : Listed} (hx : Topped q rows r x) (hy : Topped q rows r y) :
    x = y := by
  obtain ⟨t, ht, hle, hopened⟩ := hx.opened
  obtain ⟨t', ht', hle', hopened'⟩ := hy.opened
  have horder : Listed.order x = Listed.order y :=
    le_antisymm (hopened ▸ hy.top t ht hle) (hopened' ▸ hx.top t' ht' hle')
  have hsample := hx.sample.trans hy.sample.symm
  obtain ⟨b, d, i, s⟩ := x
  obtain ⟨b', d', i', s'⟩ := y
  simp only [Listed.order, EmbeddingLike.apply_eq_iff_eq, Prod.mk.injEq] at horder
  simp only at hsample
  rw [horder.1, horder.2.1, horder.2.2, hsample]

/-- The rows stored before one that is read stand before it, and none that is stored later does. -/
theorem order_le_of_before (hsorted : rows.Pairwise fun r r' => r.order ≤ r'.order)
    (hpre : before ++ [r] <+: rows) :
    (∀ t ∈ before, t.order ≤ r.order) ∧ ∀ t ∈ rows, t ∈ before ++ [r] ∨ r.order ≤ t.order := by
  obtain ⟨rest, rfl⟩ := hpre
  rw [List.pairwise_append] at hsorted
  refine ⟨fun t ht => (List.pairwise_append.mp hsorted.1).2.2 t ht r (List.mem_singleton_self r),
    fun t ht => ?_⟩
  exact (List.mem_append.mp ht).imp_right fun hrest =>
    hsorted.2.2 r (List.mem_append_right _ (List.mem_singleton_self r)) t hrest

/-- The last feature is the largest. -/
theorem Climbs.order_le_last (h : Climbs q before) {f last : FeatureInfo}
    (hlast : (fileRows (before.map q.columns)).getLast? = some last)
    (hf : f ∈ fileRows (before.map q.columns)) : f.order ≤ last.order := by
  obtain ⟨init, hinit⟩ := List.getLast?_eq_some_iff.mp hlast
  have hincreasing := h.increasing
  rw [hinit, List.mem_append, List.mem_singleton] at hf
  rw [hinit, List.pairwise_append] at hincreasing
  rcases hf with hf | rfl
  · exact (hincreasing.2.2 f hf last (List.mem_singleton_self last)).le
  · exact le_rfl

/-- **Step lemma.** -/
theorem Climbs.append (h : Climbs q before)
    (hnew : ∀ last, (fileRows (before.map q.columns)).getLast? = some last →
      last.Covers (q.columns r) ∨ last.order < (q.columns r).order) :
    Climbs q (before ++ [r]) := by
  have hfile : fileRows ((before ++ [r]).map q.columns) =
      fileRow (fileRows (before.map q.columns)) (q.columns r) := by
    rw [List.map_append, List.map_singleton, fileRows_append_singleton]
  obtain ⟨info, hcovers, -, ⟨hrow, rfl, hnot⟩ | ⟨init, hinfos, hrow⟩⟩ :=
    fileRow_spec (fileRows (before.map q.columns)) (q.columns r)
  · -- a feature of its own, larger than the last
    have hlt : ∀ last, (fileRows (before.map q.columns)).getLast? = some last →
        last.order < (q.columns r).order := fun last hlast =>
      (hnew last hlast).resolve_left (hnot last hlast)
    refine ⟨?_, fun last hlast t ht => ?_⟩
    · -- the new feature is behind the last one, and the last one is the largest
      rw [hfile, hrow, List.pairwise_append]
      refine ⟨h.increasing, List.pairwise_singleton _ _, fun f hf g hg => ?_⟩
      rw [List.mem_singleton.mp hg, order_toFeature]
      obtain ⟨last, hlast⟩ := Option.isSome_iff_exists.mp
        (List.getLast?_isSome.mpr (List.ne_nil_of_mem hf))
      exact (h.order_le_last hlast hf).trans_lt (hlt last hlast)
    · -- the new feature is the last one, and larger than all that were read
      rw [hfile, hrow, List.getLast?_concat] at hlast
      obtain rfl := Option.some.inj hlast
      rw [List.mem_append, List.mem_singleton] at ht
      rcases ht with ht | rfl
      · obtain ⟨last, hlast⟩ := Option.isSome_iff_exists.mp (List.getLast?_isSome.mpr fun hnil =>
          List.ne_nil_of_mem ht (List.map_eq_nil_iff.mp (fileRows_eq_nil_iff.mp hnil)))
        exact (h.top last hlast t ht).trans (hlt last hlast).le
      · exact le_rfl
  · -- a further sample of the last feature
    refine ⟨?_, fun last hlast t ht => ?_⟩
    · -- only the samples of the last feature change, and not its order
      have hincreasing := h.increasing
      rw [hinfos, List.pairwise_append] at hincreasing
      rw [hfile, hrow, List.pairwise_append]
      refine ⟨hincreasing.1, List.pairwise_singleton _ _, fun f hf g hg => ?_⟩
      rw [List.mem_singleton.mp hg]
      exact hincreasing.2.2 f hf info (List.mem_singleton_self info)
    · -- the last feature was the largest before, and the row is below it
      rw [hfile, hrow, List.getLast?_concat] at hlast
      obtain rfl := Option.some.inj hlast
      rw [List.mem_append, List.mem_singleton] at ht
      rcases ht with ht | rfl
      · exact h.top info (by rw [hinfos, List.getLast?_concat]) t ht
      · exact order_le_of_covers hcovers

/-- If the features come in increasing order, so they do of fewer rows. -/
theorem increasing_of_before (hpre : before <+: rows)
    (h : (fileRows (rows.map q.columns)).Pairwise fun f g => f.order < g.order) :
    (fileRows (before.map q.columns)).Pairwise fun f g => f.order < g.order := by
  obtain ⟨rest, rfl⟩ := hpre
  induction rest using List.reverseRecOn with
  | nil => rwa [List.append_nil] at h
  | append_singleton rest r ih =>
    refine ih ?_
    rw [← List.append_assoc, List.map_append, List.map_singleton, fileRows_append_singleton] at h
    rcases fileRow_cases (fileRows ((before ++ rest).map q.columns)) (q.columns r) with
      heq | ⟨init, last, hinfos, heq⟩
    · rw [heq, List.pairwise_append] at h
      exact h.1
    · rw [heq, List.pairwise_append] at h
      rw [hinfos, List.pairwise_append]
      refine ⟨h.1, List.pairwise_singleton _ _, fun f hf g hg => ?_⟩
      rw [List.mem_singleton.mp hg]
      exact h.2.2 f hf { last with samples := last.samples ++ [(q.columns r).toSample] }
        (List.mem_singleton_self _)

/-- Where the features come in increasing order, the last one is always the largest. -/
theorem climbs_of_increasing
    (h : (fileRows (rows.map q.columns)).Pairwise fun f g => f.order < g.order) :
    Climbs q rows := by
  induction rows using List.reverseRecOn with
  | nil => exact ⟨List.Pairwise.nil, by simp⟩
  | append_singleton rows r ih =>
    refine (ih (increasing_of_before (List.prefix_append _ _) h)).append fun last hlast => ?_
    refine or_iff_not_imp_left.mpr fun hcovers => ?_
    rw [List.map_append, List.map_singleton, fileRows_append_singleton, fileRow_of_last hlast,
      if_pos (not_covers_iff.mp hcovers), List.pairwise_append] at h
    exact h.2.2 last (List.mem_of_getLast? hlast) _ (List.mem_singleton_self _)

/-- The features of nested rows come in increasing order. -/
theorem climbs_of_nested (hsorted : rows.Pairwise fun r r' => r.order ≤ r'.order)
    (hnested : Nested q rows) (hpre : before <+: rows) : Climbs q before := by
  induction before using List.reverseRecOn with
  | nil => exact ⟨List.Pairwise.nil, by simp⟩
  | append_singleton before r ih =>
    have hbefore := (List.prefix_append before [r]).trans hpre
    have hclimbs := ih hbefore
    obtain ⟨hle, hsplit⟩ := order_le_of_before hsorted hpre
    refine hclimbs.append fun last hlast => or_iff_not_imp_left.mpr fun hcovers => ?_
    by_contra hnot
    -- the row that has opened the last feature is the largest that was read before
    obtain ⟨-, m', hm', hopened⟩ := exists_row_of_mem_fileRows (List.mem_of_getLast? hlast)
    obtain ⟨m, hm, rfl⟩ := List.mem_map.mp hm'
    have horder : last.order = (q.columns m).order := by rw [hopened]; rfl
    rw [horder, not_lt] at hnot
    have hne : (q.columns r).order ≠ (q.columns m).order := fun heq =>
      hcovers (covers_of_order_eq (heq.trans horder.symm))
    have hmr : m.order < r.order := lt_of_le_of_ne (hle m hm) fun heq =>
      hne (columns_order_congr heq).symm
    refine hcovers ?_
    rw [hopened]
    refine hnested r (hpre.subset (List.mem_append_right _ (List.mem_singleton_self r))) m
      (hbefore.subset hm) hmr (fun t ht htr => ?_) (lt_of_le_of_ne hnot hne)
    rcases hsplit t ht with hmem | hge
    · rw [List.mem_append, List.mem_singleton] at hmem
      rcases hmem with hmem | rfl
      · exact horder ▸ hclimbs.top last hlast t hmem
      · exact absurd htr (lt_irrefl _)
    · exact absurd hge htr.not_ge

/-- A row is listed under its own feature or under one that does not come from behind it. -/
theorem filed_fileRow (hsorted : rows.Pairwise fun r r' => r.order ≤ r'.order)
    (hpre : before ++ [r] <+: rows) {info : FeatureInfo} (hcovers : info.Covers (q.columns r))
    (hopened : info = (q.columns r).toFeature ∨ info ∈ fileRows (before.map q.columns)) :
    Filed q rows r (info.lists r) := by
  have hr : r ∈ rows := hpre.subset (List.mem_append_right _ (List.mem_singleton_self r))
  refine ⟨rfl, ⟨info, hcovers, rfl⟩, ?_⟩
  rcases hopened with rfl | hinfo
  · exact ⟨r, hr, le_rfl, rfl⟩
  · obtain ⟨-, m', hm', hinfo⟩ := exists_row_of_mem_fileRows hinfo
    obtain ⟨m, hm, rfl⟩ := List.mem_map.mp hm'
    exact ⟨m, hpre.subset (List.mem_append_left _ hm), (order_le_of_before hsorted hpre).1 m hm,
      by rw [order_lists, hinfo]; rfl⟩

/-- Every row is listed under a feature that does not come from behind it. -/
theorem filed_listing (hsorted : rows.Pairwise fun r r' => r.order ≤ r'.order)
    (hpre : before <+: rows) :
    List.Forall₂ (Filed q rows) before (listing (fileRows (before.map q.columns))) := by
  induction before using List.reverseRecOn with
  | nil => exact .nil
  | append_singleton before r ih =>
    rw [List.map_append, List.map_singleton, fileRows_append_singleton]
    obtain ⟨info, hcovers, hlisting, hopened⟩ :=
      fileRow_spec (fileRows (before.map q.columns)) (q.columns r)
    rw [hlisting]
    refine List.rel_append (ih ((List.prefix_append before [r]).trans hpre))
      (.cons (filed_fileRow hsorted hpre hcovers ?_) .nil)
    rcases hopened with ⟨-, hself, -⟩ | ⟨init, hinfos, -⟩
    · exact .inl hself
    · exact .inr (by rw [hinfos]; simp)

/-- If the features come in increasing order, it is the largest that is read up to the row. -/
theorem topped_listing (hsorted : rows.Pairwise fun r r' => r.order ≤ r'.order)
    (hclimbs : ∀ before, before <+: rows → Climbs q before) (hpre : before <+: rows) :
    List.Forall₂ (Topped q rows) before (listing (fileRows (before.map q.columns))) := by
  -- by induction on the rows, from the last one
  induction before using List.reverseRecOn with
  | nil => exact .nil
  | append_singleton before r ih =>
    -- the row is filed under a feature `info` of its prefix, which is the last one after it
    have htop := (hclimbs _ hpre).top
    obtain ⟨-, hsplit⟩ := order_le_of_before hsorted hpre
    rw [List.map_append, List.map_singleton, fileRows_append_singleton] at htop ⊢
    obtain ⟨info, hcovers, hlisting, hopened⟩ :=
      fileRow_spec (fileRows (before.map q.columns)) (q.columns r)
    have hinfo : (info = (q.columns r).toFeature ∨ info ∈ fileRows (before.map q.columns)) ∧
        ∃ last, (fileRow (fileRows (before.map q.columns)) (q.columns r)).getLast? = some last ∧
          last.order = info.order := by
      rcases hopened with ⟨hrow, hself, -⟩ | ⟨init, hinfos, hrow⟩
      · exact ⟨.inl hself, (q.columns r).toFeature, by rw [hrow, List.getLast?_concat],
          congrArg FeatureInfo.order hself.symm⟩
      · refine ⟨.inr (by rw [hinfos]; simp),
          { info with samples := info.samples ++ [(q.columns r).toSample] }, ?_, rfl⟩
        rw [hrow, List.getLast?_concat]
    obtain ⟨hself, last, hlast, horder⟩ := hinfo
    have hread : ∀ t ∈ before ++ [r], (q.columns t).order ≤ info.order := fun t ht =>
      horder ▸ htop last hlast t ht
    rw [hlisting]
    refine List.rel_append (ih ((List.prefix_append _ _).trans hpre))
      (.cons ⟨filed_fileRow hsorted hpre hcovers hself, fun t ht htr => ?_⟩ .nil)
    -- a row of the prefix was read, and any other has the order of the row itself
    rcases hsplit t ht with hmem | hge
    · exact hread t hmem
    · rw [columns_order_congr (le_antisymm htr hge)]
      exact hread r (List.mem_append_right _ (List.mem_singleton_self r))

/-! ### Old rows and new ones -/

/-- A list of what each row has alone is a map. -/
theorem exists_map_of_forall₂ {R : EigenRow → Listed → Prop}
    (hR : ∀ r x y, R r x → R r y → x = y) {xs : List Listed} (h : List.Forall₂ R rows xs) :
    ∃ f, xs = rows.map f ∧ ∀ r ∈ rows, R r (f r) := by
  classical
  have hex : ∀ r ∈ rows, ∃ x, R r x := by
    induction h with
    | nil => simp
    | cons hx _ ih => exact List.forall_mem_cons.mpr ⟨⟨_, hx⟩, ih⟩
  refine ⟨fun r => if hr : ∃ x, R r x then hr.choose else (0, "", 0, 0, []), ?_, ?_⟩
  · clear hex
    induction h with
    | nil => rfl
    | @cons r x rows xs hx _ ih =>
      rw [List.map_cons, ← ih, dif_pos ⟨x, hx⟩, hR r _ x (Exists.choose_spec ⟨x, hx⟩) hx]
  · intro r hr
    change R r (if hr : ∃ x, R r x then hr.choose else _)
    rw [dif_pos (hex r hr)]
    exact (hex r hr).choose_spec

/-- What the reader makes of old rows and new ones: those that are read smaller than an old one
before them stay where they were, and the new ones take nothing from the old. -/
structure Apart (q : FeatureQuery) (old new : List EigenRow) : Prop where
  nested : Nested q old
  fits : ∀ n ∈ new, FitsBetween q old n.order

variable {old new : List EigenRow}

theorem Apart.nested_all (h : Apart q old new) (hnew : ∀ n ∈ new, q.columns n = n)
    (hmem : ∀ r, r ∈ rows ↔ r ∈ old ∨ r ∈ new) : Nested q rows := by
  intro r hr m hm hmr hmax hsmall
  have hold : ∀ t ∈ old, t.order < r.order → (q.columns t).order ≤ (q.columns m).order :=
    fun t ht => hmax t ((hmem t).mpr (.inl ht))
  rcases (hmem r).mp hr with hr | hr
  · rcases (hmem m).mp hm with hm | hm
    · exact h.nested r hr m hm hmr hold hsmall
    · -- an old row that is read as large has been there
      rw [hnew m hm] at hold hsmall ⊢
      obtain ⟨t, ht, htr, hle⟩ := (h.fits m hm).behind r hr hmr
      have hne : t.order ≠ r.order := fun heq =>
        absurd (hsmall.trans_le hle) (by rw [columns_order_congr heq]; exact lt_irrefl _)
      have htr := lt_of_le_of_ne htr hne
      have heq := le_antisymm (hold t ht htr) hle
      exact (h.nested r hr t ht htr (fun t' ht' h' => heq ▸ hold t' ht' h')
        (heq ▸ hsmall)).congr heq
  · rw [hnew r hr] at hsmall
    refine absurd hsmall (not_lt.mpr ?_)
    rcases (hmem m).mp hm with hm | hm
    · exact (h.fits r hr).before m hm hmr
    · rw [hnew m hm]
      exact hmr.le

/-- An old row is listed among all rows as it is among the old ones. -/
theorem Apart.topped_old (h : Apart q old new) (hnew : ∀ n ∈ new, q.columns n = n)
    (hmem : ∀ r, r ∈ rows ↔ r ∈ old ∨ r ∈ new) (hr : r ∈ old) {x : Listed}
    (hx : Topped q old r x) : Topped q rows r x := by
  obtain ⟨⟨hsample, hcovered, m, hm, hmr, hopened⟩, htop⟩ := hx
  refine ⟨⟨hsample, hcovered, m, (hmem m).mpr (.inl hm), hmr, hopened⟩, fun t ht htr => ?_⟩
  rcases (hmem t).mp ht with ht | ht
  · exact htop t ht htr
  · rcases htr.lt_or_eq with hlt | heq
    · obtain ⟨t', ht', htr', hle⟩ := (h.fits t ht).behind r hr hlt
      rw [hnew t ht]
      exact hle.trans (htop t' ht' htr')
    · rw [columns_order_congr heq]
      exact htop r hr le_rfl

/-- A new row is listed as what it is. -/
theorem Apart.topped_new (h : Apart q old new) (hnew : ∀ n ∈ new, q.columns n = n)
    (hmem : ∀ r, r ∈ rows ↔ r ∈ old ∨ r ∈ new) (hr : r ∈ new) : Topped q rows r r.listed := by
  have hread := hnew r hr
  refine ⟨⟨rfl, ⟨r.toFeature, ?_, rfl⟩, r, (hmem r).mpr (.inr hr), le_rfl, ?_⟩, fun t ht htr => ?_⟩
  · rw [hread]
    exact covers_of_order_eq rfl
  · rw [hread]
    rfl
  rcases (hmem t).mp ht with ht | ht
  · rcases htr.lt_or_eq with hlt | heq
    · exact (h.fits r hr).before t ht hlt
    · rw [columns_order_congr heq, hread]
      exact le_rfl
  · rw [hnew t ht]
    exact htr

/-- Where the listing is that of the old rows and the new ones, each row stands under a feature as
large as before: a new one under its own, an old one under one that an old row up to it opens. -/
theorem opened_of_listing (hold : old.Pairwise fun r r' => r.order ≤ r'.order)
    (hperm : rows.Perm (old ++ new)) (hnew : ∀ n ∈ new, q.columns n = n) {f : EigenRow → Listed}
    (htopped : ∀ r ∈ rows, Topped q rows r (f r))
    (hlisting : (rows.map f).Perm
      (listing (fileRows (old.map q.columns)) ++ new.map EigenRow.listed)) :
    (∀ n ∈ new, Listed.order (f n) = n.order) ∧
      ∀ r ∈ old, ∃ t ∈ old, t.order ≤ r.order ∧ (q.columns t).order = Listed.order (f r) := by
  have hmem : ∀ r, r ∈ rows ↔ r ∈ old ∨ r ∈ new := fun r => by
    rw [hperm.mem_iff, List.mem_append]
  have hfiled := filed_listing (q := q) hold (List.prefix_refl old)
  have horders : (listing (fileRows (old.map q.columns)) ++ new.map EigenRow.listed).map
      Listed.order = ((old ++ new).map f).map Listed.order := by
    -- no order is smaller than before, and both sides have the same, as the rows are the same
    refine eq_of_forall₂_le_of_perm ?_ ((hlisting.symm.trans (hperm.map f)).map Listed.order)
    simp only [List.map_append]
    refine List.rel_append ?_ ?_
    · -- an old row is filed under a feature that one of the rows up to it has opened
      simp only [List.forall₂_map_left_iff, List.forall₂_map_right_iff]
      refine List.Forall₂.flip ?_
      refine ((List.forall₂_and_left _ _).mpr ⟨fun r hr => hr, hfiled⟩).imp ?_
      rintro r x ⟨hr, hx⟩
      obtain ⟨t, ht, htr, hopened⟩ := hx.opened
      change Listed.order x ≤ Listed.order (f r)
      rw [← hopened]
      exact (htopped r ((hmem r).mpr (.inl hr))).top t ((hmem t).mpr (.inl ht)) htr
    · -- a new row is read as it is
      simp only [List.forall₂_map_left_iff, List.forall₂_map_right_iff, List.forall₂_same]
      intro n hn
      have hn' := (hmem n).mpr (.inr hn)
      have hle := (htopped n hn').top n hn' le_rfl
      rwa [hnew n hn] at hle
  simp only [List.map_append] at horders
  obtain ⟨holdOrders, hnewOrders⟩ := List.append_inj horders
    (by simp only [List.length_map]; exact hfiled.length_eq.symm)
  constructor
  · simp only [List.map_map, List.map_inj_left] at hnewOrders
    exact fun n hn => (hnewOrders n hn).symm
  · have hopened : List.Forall₂ (fun r k => ∃ t ∈ old, t.order ≤ r.order ∧
        (q.columns t).order = k) old
        ((listing (fileRows (old.map q.columns))).map Listed.order) :=
      List.forall₂_map_right_iff.mpr (hfiled.imp fun _ _ hx => hx.opened)
    rw [holdOrders] at hopened
    simpa only [List.forall₂_map_right_iff, List.forall₂_same] using hopened

/-- Then the rows have their places. -/
theorem apart_of_opened (hnew : ∀ n ∈ new, q.columns n = n)
    (hmem : ∀ r, r ∈ rows ↔ r ∈ old ∨ r ∈ new) {f : EigenRow → Listed}
    (htopped : ∀ r ∈ rows, Topped q rows r (f r))
    (htopNew : ∀ n ∈ new, Listed.order (f n) = n.order)
    (htopOld : ∀ r ∈ old, ∃ t ∈ old, t.order ≤ r.order ∧
      (q.columns t).order = Listed.order (f r)) : Apart q old new := by
  refine ⟨fun r hr m hm hmr hmax hsmall => ?_, fun n hn =>
    ⟨fun r hr hlt => ?_, fun r hr hlt => ?_⟩⟩
  · -- the feature of `m` opens below `r`, so `r` is a sample of it
    obtain ⟨t, ht, htr, hopened⟩ := htopOld r hr
    have hrow := htopped r ((hmem r).mpr (.inl hr))
    have hge : (q.columns m).order ≤ Listed.order (f r) :=
      hrow.top m ((hmem m).mpr (.inl hm)) hmr.le
    have hne : t.order ≠ r.order := fun heq =>
      absurd (hsmall.trans_le hge) (by rw [← hopened, columns_order_congr heq]; exact lt_irrefl _)
    have htop : Listed.order (f r) = (q.columns m).order :=
      le_antisymm (hopened ▸ hmax t ht (lt_of_le_of_ne htr hne)) hge
    obtain ⟨info, hcovers, horder⟩ := hrow.covered
    exact hcovers.congr (horder.trans htop)
  · -- an old row below a new one opens no larger feature
    have hle := (htopped n ((hmem n).mpr (.inr hn))).top r ((hmem r).mpr (.inl hr)) hlt.le
    rwa [htopNew n hn] at hle
  · -- an old row above a new one stands under a feature that is at least as large
    obtain ⟨t, ht, htr, hopened⟩ := htopOld r hr
    refine ⟨t, ht, htr, ?_⟩
    have hle := (htopped r ((hmem r).mpr (.inl hr))).top n ((hmem n).mpr (.inr hn)) hlt.le
    rwa [hnew n hn, ← hopened] at hle

/-- Rows that climb are listed one by one, each under the largest feature up to it. -/
theorem exists_topped (hrows : rows.Pairwise fun r r' => r.order ≤ r'.order)
    (hclimbs : ∀ before, before <+: rows → Climbs q before) :
    ∃ f, listing (fileRows (rows.map q.columns)) = rows.map f ∧
      ∀ r ∈ rows, Topped q rows r (f r) :=
  exists_map_of_forall₂ (R := Topped q rows) (fun _ _ _ => Topped.unique)
    (topped_listing hrows hclimbs (List.prefix_refl rows))

/-- Rows that have their places are listed under the features they were under. -/
theorem Apart.listing_perm (h : Apart q old new)
    (hrows : rows.Pairwise fun r r' => r.order ≤ r'.order)
    (hold : old.Pairwise fun r r' => r.order ≤ r'.order) (hperm : rows.Perm (old ++ new))
    (hnew : ∀ n ∈ new, q.columns n = n) (hmem : ∀ r, r ∈ rows ↔ r ∈ old ∨ r ∈ new) :
    (listing (fileRows (rows.map q.columns))).Perm
      (listing (fileRows (old.map q.columns)) ++ new.map EigenRow.listed) := by
  obtain ⟨f, hf, htopped⟩ := exists_topped (q := q) hrows fun before =>
    climbs_of_nested hrows (h.nested_all hnew hmem)
  obtain ⟨g, hg, htoppedOld⟩ := exists_topped (q := q) hold fun before =>
    climbs_of_nested hold h.nested
  have hsame : old.map g ++ new.map EigenRow.listed = (old ++ new).map f := by
    rw [List.map_append]
    congr 1
    · refine List.map_congr_left fun r hr => ?_
      exact (h.topped_old hnew hmem hr (htoppedOld r hr)).unique
        (htopped r ((hmem r).mpr (.inl hr)))
    · refine List.map_congr_left fun r hr => ?_
      exact (h.topped_new hnew hmem hr).unique (htopped r ((hmem r).mpr (.inr hr)))
  rw [hf, hg, hsame]
  exact hperm.map f

/-- **Exactly when new rows are listed beside the old ones.** -/
theorem listing_eq_iff_apart (hrows : rows.Pairwise fun r r' => r.order ≤ r'.order)
    (hold : old.Pairwise fun r r' => r.order ≤ r'.order) (hperm : rows.Perm (old ++ new))
    (hnew : ∀ n ∈ new, q.columns n = n) :
    ((listing (fileRows (rows.map q.columns))).Perm
        (listing (fileRows (old.map q.columns)) ++ new.map EigenRow.listed) ∧
      (fileRows (rows.map q.columns)).Pairwise fun f g => f.order < g.order) ↔
    Apart q old new := by
  have hmem : ∀ r, r ∈ rows ↔ r ∈ old ∨ r ∈ new := fun r => by
    rw [hperm.mem_iff, List.mem_append]
  constructor
  · rintro ⟨hlisting, hincreasing⟩
    obtain ⟨f, hf, htopped⟩ := exists_topped (q := q) hrows fun before hpre =>
      climbs_of_increasing (increasing_of_before hpre hincreasing)
    rw [hf] at hlisting
    obtain ⟨htopNew, htopOld⟩ := opened_of_listing hold hperm hnew htopped hlisting
    exact apart_of_opened hnew hmem htopped htopNew htopOld
  · intro h
    exact ⟨h.listing_perm hrows hold hperm hnew hmem,
      (climbs_of_nested hrows (h.nested_all hnew hmem) (List.prefix_refl rows)).increasing⟩

end Rows

/-! ### The table -/

section Table

variable {uuidOf : ℤ → String} {q : FeatureQuery} {db db' : EigenInfo} {news : List EigenRow}
  {infos : List FeatureInfo}

theorem order_le_of_key_le {r r' : EigenRow} (h : r.key ≤ r'.key) (huid : r.uid = r'.uid)
    (huuid : r.uuid = r'.uuid) : r.order ≤ r'.order := by
  have htail := FeatureKey.tail_le h huid huuid
  simpa [EigenRow.order, Prod.Lex.toLex_le_toLex] using htail

/-- The current rows of one user come in the order of the rest of the key. -/
theorem currentRows_order (huid : q.uid ≠ -1) :
    (currentRows uuidOf db q).Pairwise fun r r' => r.order ≤ r'.order := by
  have hsame : ∀ r ∈ currentRows uuidOf db q, r.uid = q.uid ∧ r.uuid = some (uuidOf q.uid) := by
    intro r hr
    obtain ⟨-, hselects, hcur⟩ := mem_currentRows.mp hr
    have hr := (FeatureQuery.selects_iff.mp hselects).2.1.resolve_left huid
    have huuid : r.uuid = some (uuidOf r.uid) := of_decide_eq_true hcur
    exact ⟨hr, hr ▸ huuid⟩
  refine (currentRows_sorted uuidOf db q).imp_of_mem fun {r r'} hr hr' hle => ?_
  exact order_le_of_key_le hle ((hsame r hr).1.trans (hsame r' hr').1.symm)
    ((hsame r hr).2.trans (hsame r' hr').2.symm)

/-- The rows that are current after a write. -/
theorem currentRows_append_perm (hrows : db'.rows = db.rows ++ news) :
    (currentRows uuidOf db' q).Perm (currentRows uuidOf db q ++
      news.filter fun r => q.selects r && r.isCurrent uuidOf) := by
  have hperm : ∀ db : EigenInfo, (currentRows uuidOf db q).Perm
      (db.rows.filter fun r => q.selects r && r.isCurrent uuidOf) := fun db => by
    refine ((selectRows_perm db q).filter _).trans ?_
    rw [List.filter_filter]
    simp [Bool.and_comm]
  refine (hperm db').trans ?_
  rw [hrows, List.filter_append]
  exact (hperm db).symm.append_right _

/-- Of the rows selected after a write, the old ones come in the order they had. -/
theorem filter_selectRows_old (hrows : db'.rows = db.rows ++ news) :
    (selectRows db' q).filter (fun t => decide (t ∈ db.rows)) = selectRows db q := by
  have : Std.Total fun r r' : EigenRow => r.sortKey ≤ r'.sortKey := ⟨fun _ _ => le_total _ _⟩
  have : IsTrans EigenRow fun r r' => r.sortKey ≤ r'.sortKey := ⟨fun _ _ _ => le_trans⟩
  have hold : (db.rows.filter q.selects).filter (fun t => decide (t ∈ db.rows)) =
      db.rows.filter q.selects :=
    List.filter_eq_self.mpr fun t ht => decide_eq_true (List.mem_filter.mp ht).1
  have hnew : (news.filter q.selects).filter (fun t => decide (t ∈ db.rows)) = [] := by
    refine List.filter_eq_nil_iff.mpr fun n hn hmem => ?_
    have hids := db'.ids_nodup
    rw [hrows, List.map_append, List.nodup_append] at hids
    exact hids.2.2 n.id (List.mem_map_of_mem (of_decide_eq_true hmem)) n.id
      (List.mem_map_of_mem (List.mem_filter.mp hn).1) rfl
  rw [selectRows, Grouping.filter_insertionSort, hrows, List.filter_append, List.filter_append,
    hold, hnew, List.append_nil, selectRows]

/-- A write does not keep the loop from the first current row. -/
theorem Starts.write (h : Starts uuidOf q (selectRows db q)) (hrows : db'.rows = db.rows ++ news)
    (hnews : ∀ n ∈ news, q.selects n = true →
      n.isCurrent uuidOf = true ∧ 0 ≤ (q.columns n).bioType) :
    Starts uuidOf q (selectRows db' q) := by
  intro before r hpre hstale
  have hsub : ∀ t ∈ before ++ [r], t ∈ db.rows ++ news ∧ q.selects t = true := fun t ht => by
    rw [← hrows]
    exact mem_selectRows.mp (hpre.subset ht)
  have hr := hsub r (List.mem_append_right _ (List.mem_singleton_self r))
  rcases List.mem_append.mp hr.1 with hold | hnew
  · -- the rows before are stale, and so old ones too
    have hpre' := hpre.filter fun t => decide (t ∈ db.rows)
    rw [filter_selectRows_old hrows, List.filter_eq_self.mpr] at hpre'
    · exact h before r hpre' hstale
    · intro t ht
      obtain ⟨hmem, hselects⟩ := hsub t ht
      rw [List.mem_append, List.mem_singleton] at ht
      refine decide_eq_true ?_
      rcases ht with ht | rfl
      · refine (List.mem_append.mp hmem).resolve_right fun hn => ?_
        exact Bool.false_ne_true ((hstale t ht).symm.trans (hnews t hn hselects).1)
      · exact hold
  · exact .inr (hnews r hnew hr.2).2

/-- The user can be listed, and what is written is read apart from what is there. The keys are those
of the current rows that the filter selects. -/
structure ListsApart (uuidOf : ℤ → String) (db : EigenInfo) (infos : List FeatureInfo)
    (q : FeatureQuery) : Prop where
  /-- The loop gets to the first current row. -/
  starts : Starts uuidOf q (selectRows db q)
  /-- A row that is read smaller than the largest before it is not told from that one's feature. -/
  nested : Nested q (currentRows uuidOf db q)
  /-- Every written feature that the filter keeps has its place among the rows. -/
  fits : ∀ info ∈ infos, q.keeps info = true →
    FitsBetween q (currentRows uuidOf db q) info.order

/-- So it is where the rows of the user come through whole. -/
theorem listsApart_of_whole
    (hwhole : ∀ r ∈ db.rows, q.selects r = true → r.isCurrent uuidOf = true → q.columns r = r)
    (hbio : ∀ r ∈ db.rows, q.selects r = true → 0 ≤ (q.columns r).bioType) :
    ListsApart uuidOf db infos q := by
  have hread : ∀ r ∈ currentRows uuidOf db q, q.columns r = r := by
    intro r hr
    obtain ⟨hrow, hselects, hcur⟩ := mem_currentRows.mp hr
    exact hwhole r hrow hselects hcur
  refine ⟨fun before r hpre _ => .inr ?_, fun r hr m hm hmr _ hsmall => ?_,
    fun info _ _ => ⟨fun r hr hlt => ?_, fun r hr hlt => ⟨r, hr, le_rfl, ?_⟩⟩⟩
  · obtain ⟨hrow, hselects⟩ := mem_selectRows.mp
      (hpre.subset (List.mem_append_right _ (List.mem_singleton_self r)))
    exact hbio r hrow hselects
  · rw [hread r hr, hread m hm] at hsmall
    exact absurd hmr hsmall.asymm
  · rw [hread r hr]
    exact hlt.le
  · rw [hread r hr]
    exact hlt.le

end Table

/-! ### Reading back what was written -/

section Write

variable {uuidOf : ℤ → String} {q : FeatureQuery}

/-- The filter keeps a written row exactly when it keeps its feature. -/
theorem EigenRow.Holds.selects {new : EigenRow} {uuid : String} {info : FeatureInfo}
    {s : FeatureSample} (h : new.Holds uuid info s) : q.selects new = q.keeps info := by
  have hdriver : (∀ d, q.driver = some d → info.driver = d) ↔
      q.driver = none ∨ q.driver = some info.driver := by
    cases q.driver with
    | none => simp
    | some d => simp [eq_comm]
  rw [Bool.eq_iff_iff, FeatureQuery.selects_iff, h.uid, h.bioType, h.driver, h.eigenIndex,
    hdriver]
  simp [FeatureQuery.keeps]

theorem EigenRow.Holds.isCurrent {new : EigenRow} {info : FeatureInfo} {s : FeatureSample}
    (h : new.Holds (uuidOf info.uid) info s) : new.isCurrent uuidOf = true := by
  simp [EigenRow.isCurrent, h.uuid, h.uid]

theorem samplesOf_filter (p : FeatureInfo → Bool) (infos : List FeatureInfo) :
    samplesOf (infos.filter p) = (samplesOf infos).filter fun x => p x.1 := by
  induction infos with
  | nil => rfl
  | cons info infos ih =>
    unfold samplesOf at ih ⊢
    rw [List.flatMap_cons, List.filter_append, ← ih, List.filter_map, List.filter_cons]
    cases hp : p info with
    | true => simp [Function.comp_def, hp]
    | false => simp [Function.comp_def, hp]

/-- What is listed of the rows a write appends. -/
theorem listed_of_holds {news : List EigenRow} {infos : List FeatureInfo}
    (h : List.Forall₂ (fun new p => EigenRow.Holds new (uuidOf p.1.uid) p.1 p.2) news
      (samplesOf infos)) (hints : ∀ info ∈ infos, info.Ints) :
    (news.filter fun r => q.selects r && r.isCurrent uuidOf).map EigenRow.listed =
      listing (infos.filter q.keeps) := by
  have hno : ∀ p ∈ samplesOf infos, IsCInt p.2.no := by
    rintro p hp
    obtain ⟨info, hinfo, hp⟩ := List.mem_flatMap.mp hp
    obtain ⟨s, hs, rfl⟩ := List.mem_map.mp hp
    exact (hints info hinfo).no s hs
  rw [listing, samplesOf_filter]
  generalize samplesOf infos = l at h hno
  induction h with
  | nil => rfl
  | @cons new p news l hnew _ ih =>
    obtain ⟨hp, hl⟩ := List.forall_mem_cons.mp hno
    rw [List.filter_cons, List.filter_cons, hnew.selects, hnew.isCurrent, Bool.and_true]
    split
    · rw [List.map_cons, List.map_cons, ih hl, EigenRow.listed, hnew.bioType, hnew.driver,
        hnew.eigenIndex, hnew.sampleNo, hnew.eigenData, columnInt_of_isCInt hp]
    · exact ih hl

end Write

/-- One user is listed before and after a write: after it with the samples of that user in the
written list that the filter keeps; no feature is empty, and their keys increase. -/
def RoundTrips (uuidOf : ℤ → String) (db db' : EigenInfo) (infos : List FeatureInfo)
    (q : FeatureQuery) : Prop :=
  ∃ before after, bioStoGetFeatureInfo uuidOf db q = some before ∧
    bioStoGetFeatureInfo uuidOf db' q = some after ∧
    (listing after : Multiset Listed) = listing before + listing (infos.filter q.keeps) ∧
    (∀ info ∈ after, info.samples ≠ []) ∧
    after.Pairwise fun f g => f.order < g.order

theorem EigenRow.Holds.order {uuid : String} {new : EigenRow} {info : FeatureInfo}
    {s : FeatureSample} (h : new.Holds uuid info s) : new.order = info.order := by
  rw [EigenRow.order, h.bioType, h.driver, h.eigenIndex]
  rfl

theorem FeatureQuery.columns_holds {q : FeatureQuery} {uuid : String} {new : EigenRow}
    {info : FeatureInfo} {s : FeatureSample} (huid : q.uid ≠ -1) (h : new.Holds uuid info s)
    (hints : info.Ints) : q.columns new = new := by
  have hbio : IsCInt new.bioType := h.bioType ▸ hints.biotype
  have hidx : IsCInt new.eigenIndex := h.eigenIndex ▸ hints.index
  refine FeatureQuery.columns_eq_self_iff.mpr ⟨FeatureQuery.columns_uid huid, ?_, ?_⟩
  · exact (if_congr Iff.rfl (columnInt_of_isCInt hbio) rfl).trans (ite_self _)
  · exact (if_congr Iff.rfl (columnInt_of_isCInt hidx) rfl).trans (ite_self _)

/-- Every sample of the list has been written. -/
theorem exists_new_of_info {R : EigenRow → FeatureInfo × FeatureSample → Prop}
    {news : List EigenRow} {infos : List FeatureInfo}
    (h : List.Forall₂ R news (samplesOf infos)) {info : FeatureInfo} (hinfo : info ∈ infos)
    (hsamples : info.samples ≠ []) : ∃ new ∈ news, ∃ s, R new (info, s) := by
  obtain ⟨s, hs⟩ := List.exists_mem_of_ne_nil _ hsamples
  have hmem : (info, s) ∈ samplesOf infos :=
    List.mem_flatMap.mpr ⟨info, hinfo, List.mem_map_of_mem hs⟩
  generalize samplesOf infos = l at h hmem
  induction h with
  | nil => cases hmem
  | @cons new p news l hnew _ ih =>
    rcases List.mem_cons.mp hmem with rfl | hmem
    · exact ⟨new, List.mem_cons_self, s, hnew⟩
    · obtain ⟨new, hnew, hR⟩ := ih hmem
      exact ⟨new, List.mem_cons_of_mem _ hnew, hR⟩

/-- **Write/read round trip.** A write that returns `0` can be read back, user by user, exactly if
the written features have their places among the rows of the user that are there already. -/
theorem bioStoSetFeatureInfo_getFeatureInfo_iff (uuidOf : ℤ → String) (c c' : Store)
    (infos : List FeatureInfo) (q : FeatureQuery) (huuid : ∀ r ∈ c.db.rows, r.uuid ≠ none)
    (hinfos : ∀ info ∈ infos, 0 ≤ info.uid ∧ 0 ≤ info.biotype ∧ info.samples ≠ [])
    (hints : ∀ info ∈ infos, info.Ints) (hq : 0 ≤ q.uid)
    (h : bioStoSetFeatureInfo uuidOf c infos = some (0, c')) :
    RoundTrips uuidOf c.db c'.db infos q ↔ ListsApart uuidOf c.db infos q := by
  have huid : q.uid ≠ -1 := by omega
  obtain ⟨news, hrows, hnews⟩ := bioStoSetFeatureInfo_rows
    (fun info hi => by have := (hinfos info hi).1; omega) h
  -- a written row is one of `int`s, so it is read as it was written
  have hnew : ∀ n ∈ news, ∃ info ∈ infos, n.order = info.order ∧ q.selects n = q.keeps info ∧
      n.isCurrent uuidOf = true ∧ n.uuid ≠ none ∧ q.columns n = n ∧ 0 ≤ n.bioType := by
    intro n hn
    obtain ⟨info, hinfo, s, hold⟩ := exists_info_of_holds hnews hn
    refine ⟨info, hinfo, hold.order, hold.selects, hold.isCurrent, ?_,
      FeatureQuery.columns_holds huid hold (hints info hinfo), ?_⟩
    · rw [hold.uuid]
      exact Option.some_ne_none _
    · rw [hold.bioType]
      exact (hinfos info hinfo).2.1
  -- the table after the write has no row without a UUID either
  have huuid' : ∀ r ∈ c'.db.rows, r.uuid ≠ none := by
    rw [hrows, List.forall_mem_append]
    refine ⟨huuid, fun n hn => ?_⟩
    obtain ⟨-, -, -, -, -, hne, -⟩ := hnew n hn
    exact hne
  -- what holds of the listed new rows holds of the written features, and of no others
  have hkept : ∀ p : ℤ ×ₗ String ×ₗ ℤ → Prop,
      (∀ n ∈ news.filter fun r => q.selects r && r.isCurrent uuidOf, p n.order) ↔
        ∀ info ∈ infos, q.keeps info = true → p info.order := by
    intro p
    constructor
    · intro hp info hinfo hkeeps
      obtain ⟨n, hn, s, hold⟩ := exists_new_of_info hnews hinfo (hinfos info hinfo).2.2
      rw [← hold.order]
      refine hp n (List.mem_filter.mpr ⟨hn, ?_⟩)
      rw [hold.selects, hkeeps, hold.isCurrent, Bool.and_true]
    · intro hp n hn
      obtain ⟨hn, hselects⟩ := List.mem_filter.mp hn
      obtain ⟨info, hinfo, horder, hkeeps, -⟩ := hnew n hn
      rw [horder]
      exact hp info hinfo (hkeeps ▸ (Bool.and_eq_true_iff.mp hselects).1)
  have hsorted : (currentRows uuidOf c'.db q).Pairwise fun r r' => r.order ≤ r'.order :=
    currentRows_order huid
  have hcore := listing_eq_iff_apart (q := q) hsorted
    (currentRows_order huid) (currentRows_append_perm hrows) fun n hn => by
      obtain ⟨-, -, -, -, -, -, hcolumns, -⟩ := hnew n (List.mem_filter.mp hn).1
      exact hcolumns
  rw [listed_of_holds hnews hints] at hcore
  constructor
  · -- the listing after the write is that of the old rows and the written features
    rintro ⟨before, after, hbefore, hafter, hlisting, -, hincreasing⟩
    obtain ⟨hstarts, rfl⟩ :=
      (bioStoGetFeatureInfo_of_starts huid fun r hr _ => huuid r hr).mp hbefore
    obtain ⟨-, rfl⟩ := (bioStoGetFeatureInfo_of_starts huid fun r hr _ => huuid' r hr).mp hafter
    rw [Multiset.coe_add, Multiset.coe_eq_coe] at hlisting
    obtain ⟨hnested, hfits⟩ := hcore.mp ⟨hlisting, hincreasing⟩
    exact ⟨hstarts, hnested, (hkept _).mp hfits⟩
  · -- the new rows have their places, so the reader gets through and lists them beside the old ones
    rintro ⟨hstarts, hnested, hfits⟩
    obtain ⟨hlisting, hincreasing⟩ := hcore.mpr ⟨hnested, (hkept _).mpr hfits⟩
    refine ⟨_, _, (bioStoGetFeatureInfo_of_starts huid fun r hr _ => huuid r hr).mpr
      ⟨hstarts, rfl⟩, (bioStoGetFeatureInfo_of_starts huid fun r hr _ => huuid' r hr).mpr
      ⟨hstarts.write hrows fun n hn _ => ?_, rfl⟩, ?_, fun info hinfo =>
        (exists_row_of_mem_userFeatures hinfo).1, hincreasing⟩
    · obtain ⟨-, -, -, -, hcur, -, hcolumns, hbio⟩ := hnew n hn
      exact ⟨hcur, hcolumns.symm ▸ hbio⟩
    · rw [Multiset.coe_add, Multiset.coe_eq_coe]
      exact hlisting
/-- `bioStoSetFeatureInfo_getFeatureInfo_iff` on a list of two features of two users,
written over a stale row and read back for the second user. -/
theorem bioStoSetFeatureInfo_getFeatureInfo_two :
    RoundTrips (fun _ => "u") (EigenInfo.empty.insert 1 "old" 0 "uru4000" 0 "a" 2 [80])
      (((EigenInfo.empty.insert 1 "old" 0 "uru4000" 0 "a" 2 [80]).insert
        0 "u" 0 "uru4000" 0 "b" 1 [81]).insert 1 "u" 0 "uru4000" 3 "c" 1 [82])
      [⟨0, 0, "uru4000", 0, "b", [⟨0, 1, [81]⟩]⟩, ⟨1, 0, "uru4000", 3, "c", [⟨0, 1, [82]⟩]⟩]
      ⟨1, 0, none, 0, -1⟩ :=
  (bioStoSetFeatureInfo_getFeatureInfo_iff (fun _ => "u")
    { db := EigenInfo.empty.insert 1 "old" 0 "uru4000" 0 "a" 2 [80], outcomes := [] }
    { db := ((EigenInfo.empty.insert 1 "old" 0 "uru4000" 0 "a" 2 [80]).insert
        0 "u" 0 "uru4000" 0 "b" 1 [81]).insert 1 "u" 0 "uru4000" 3 "c" 1 [82],
      outcomes := [] }
    [⟨0, 0, "uru4000", 0, "b", [⟨0, 1, [81]⟩]⟩, ⟨1, 0, "uru4000", 3, "c", [⟨0, 1, [82]⟩]⟩]
    ⟨1, 0, none, 0, -1⟩ (by decide) (by decide)
    (List.forall_mem_cons.mpr ⟨⟨by decide, by decide, by decide⟩,
      List.forall_mem_singleton.mpr ⟨by decide, by decide, by decide⟩⟩)
    (by decide) rfl).mpr (listsApart_of_whole (by decide) (by decide))

/-- A row of one user whose index has more than 32 bits. -/
def wideIndexTable : EigenInfo :=
  EigenInfo.empty.insert 1000 "u" 0 "uru4000" 4294967299 "a" 1 [80]

/-- Read as `3`, its sample is put into a feature written at index `5`. -/
theorem not_roundTrips_wideIndex :
    bioStoSetFeatureInfo (fun _ => "u") ⟨wideIndexTable, []⟩
        [⟨1000, 0, "uru4000", 5, "b", [⟨0, 1, [81]⟩]⟩] =
      some (0, ⟨wideIndexTable.insert 1000 "u" 0 "uru4000" 5 "b" 1 [81], []⟩) ∧
    ¬ RoundTrips (fun _ => "u") wideIndexTable
      (wideIndexTable.insert 1000 "u" 0 "uru4000" 5 "b" 1 [81])
      [⟨1000, 0, "uru4000", 5, "b", [⟨0, 1, [81]⟩]⟩] ⟨1000, 0, none, 0, -1⟩ := by
  refine ⟨rfl, ?_⟩
  rintro ⟨before, after, hbefore, hafter, hlisting, -⟩
  obtain rfl : [⟨1000, 0, "uru4000", 3, "a", [⟨1, 1, [80]⟩]⟩] = before :=
    Option.some.inj hbefore
  obtain rfl : [⟨1000, 0, "uru4000", 5, "b", [⟨2, 1, [81]⟩, ⟨1, 1, [80]⟩]⟩] = after :=
    Option.some.inj hafter
  revert hlisting
  decide

end BiometricAuth
