import BiometricAuth.Storage.ReaderSpec

/-!
# Exactly when the reader is right

`ReadsTrue` goes by what the loop of the reader has noted, for a table may hold a uid that
`sqlite3_column_int` does not bring through whole, and then the loop does not see its rows sorted.
Where every selected uid comes through whole the notes are those of the row before
(`Notes.ofLast_after`), and `FilesTrue` says the same of the rows alone. It fails in four
situations:

* a current row does not come through whole;
* up to the first current row, one whose uid is no larger than the one before is read with a
  negative biotype: there is nothing to compare its other columns with;
* the cursor starts with a row of uid `-1`. `old_uid` starts out as `-1` too, so the UUID of that
  user is never looked up and `""` stands in for it (`readerUuid`);
* a row is **misfiled** (`Misfiled`): the row before it is a stale row of the same user, so that the
  uid has been noted without a feature being opened, and the remaining `old_*` variables, left by
  another user with the same UUID, do not tell the row from that user's feature.

Main results:

* `readsTrue_iff_filesTrue`: the two agree where every uid comes through whole;
* `bioStoGetFeatureInfo_eq_iff`: the reader returns `currentFeatures` exactly
  when its cursor is one of `ReadsTrue`, and there one of `FilesTrue`.
-/

namespace BiometricAuth

/-! ### Where every uid comes through whole -/

/-- The UUID the loop ends up holding for a user: the current one, but `""` for
uid `-1` when the cursor starts with that uid. -/
def readerUuid (uuidOf : ℤ → String) (rows : List EigenRow) (uid : ℤ) : String :=
  if uid = -1 ∧ (rows.head?.map EigenRow.uid) = some (-1) then "" else uuidOf uid

/-- Row `r`, read after the rows `before`, is taken for a sample of another
user's feature: `v` is the last current row among `before`, the row right before
`r` is of `r`'s user already, and nothing the loop compares tells `r` from `v`. -/
structure Misfiled (uuidOf : ℤ → String) (before : List EigenRow) (r v : EigenRow) : Prop where
  /-- `r` is current. -/
  current : r.isCurrent uuidOf = true
  /-- `v` is the last current row before `r`. -/
  last : (before.filter fun r => r.isCurrent uuidOf).getLast? = some v
  /-- The row right before `r` belongs to the same user. -/
  between : (before.getLast?.map EigenRow.uid) = some r.uid
  /-- `v` belongs to another user. -/
  uid : v.uid < r.uid
  /-- The two users have the same UUID. -/
  uuid : v.uuid = r.uuid
  /-- `old_bio_type < biotype` fails. -/
  bioType : r.bioType ≤ v.bioType
  /-- `strcmp(old_driver, driver) != 0` fails. -/
  driver : v.driver = r.driver
  /-- `old_idx < idx` fails. -/
  eigenIndex : r.eigenIndex ≤ v.eigenIndex

/-- `ReadsTrue` of a cursor whose uids come through whole, said of its rows alone. -/
structure FilesTrue (uuidOf : ℤ → String) (q : FeatureQuery) (rows : List EigenRow) : Prop where
  /-- Every current row comes through whole. -/
  whole : ∀ r ∈ rows, r.isCurrent uuidOf = true → q.ReadsWhole r
  /-- If the cursor starts with uid `-1`, the UUID never looked up makes no
  difference to a row of that uid. -/
  lookup : (rows.head?.map EigenRow.uid) = some (-1) →
    ∀ r ∈ rows, r.uid = -1 → (r.uuid = some "" ↔ r.uuid = some (uuidOf (-1)))
  /-- The loop gets to the first current row. -/
  starts : Starts uuidOf q rows
  /-- No row is misfiled. -/
  filed : ∀ before r v, before ++ [r] <+: rows → ¬ Misfiled uuidOf before r v

/-- The notes are those of the last row. -/
structure Notes.OfLast (uuidOf : ℤ → String) (rows before : List EigenRow) (n : Notes) :
    Prop where
  uid : n.uid = (before.getLast?.map EigenRow.uid).getD (-1)
  uuid : n.uuid = ((before.getLast?.map EigenRow.uid).map (readerUuid uuidOf rows)).getD ""

section Uids

variable {uuidOf : ℤ → String} {q : FeatureQuery} {rows before : List EigenRow} {r : EigenRow}

theorem lets_iff_of_fresh {n : Notes} (hrow : n.row = none) :
    n.lets r = true ↔ n.uid < r.uid ∨ 0 ≤ r.bioType := by
  rw [Notes.lets, hrow, Bool.or_eq_true, decide_eq_true_iff, decide_eq_true_iff]
  refine or_congr_right ⟨fun h => ?_, fun h => ?_⟩ <;> omega

/-- The UUID is looked up of every user but the one noted. -/
theorem readerUuid_of_last {l : EigenRow} (hsorted : rows.Pairwise fun r r' => r.key ≤ r'.key)
    (hpre : before ++ [r] <+: rows) (hl : before.getLast? = some l) (hne : l.uid ≠ r.uid) :
    readerUuid uuidOf rows r.uid = uuidOf r.uid := by
  refine if_neg fun ⟨huid, hhead⟩ => hne ?_
  have hsorted' := hsorted.sublist hpre.sublist
  have hlast := (List.pairwise_append.mp hsorted').2.2 l (List.mem_of_getLast? hl) r
    (List.mem_singleton_self r)
  obtain ⟨first, hfirst, hfirstUid⟩ := Option.map_eq_some_iff.mp hhead
  obtain ⟨a, before', rfl⟩ := List.exists_cons_of_ne_nil
    (List.ne_nil_of_mem (List.mem_of_getLast? hl))
  obtain ⟨rest, rfl⟩ := hpre
  obtain rfl : a = first := Option.some.inj hfirst
  have hfrom : a.uid ≤ l.uid := by
    rcases List.mem_cons.mp (List.mem_of_getLast? hl) with rfl | hmem
    · exact le_rfl
    · exact FeatureKey.uid_le ((List.pairwise_cons.mp hsorted').1 l
        (List.mem_append_left _ hmem))
  have hto : l.uid ≤ r.uid := FeatureKey.uid_le hlast
  omega

/-- One more row: a row that is not let through has the uid noted. -/
theorem Notes.OfLast.meet {n : Notes} (h : n.OfLast uuidOf rows before)
    (hsorted : rows.Pairwise fun r r' => r.key ≤ r'.key) (hpre : before ++ [r] <+: rows)
    (huid : (q.columns r).uid = r.uid)
    (hlets : n.lets (q.columns r) = false → before ≠ []) :
    (n.meet uuidOf (q.columns r)).OfLast uuidOf rows (before ++ [r]) := by
  obtain ⟨hnUid, hnUuid⟩ := h
  -- the uid that is noted is the row's, and the UUID the one looked up for it
  suffices hmeet : (n.meet uuidOf (q.columns r)).uid = r.uid ∧
      (n.meet uuidOf (q.columns r)).uuid = readerUuid uuidOf rows r.uid by
    refine ⟨?_, ?_⟩ <;> rw [List.getLast?_concat]
    · exact hmeet.1
    · exact hmeet.2
  -- the first row is let through, so its user is looked up unless he is the initial `-1`
  cases hlast : before.getLast? with
  | none =>
    obtain rfl := List.getLast?_eq_none_iff.mp hlast
    cases hthrough : n.lets (q.columns r) with
    | false => exact absurd rfl (hlets hthrough)
    | true =>
      obtain ⟨rest, rfl⟩ := hpre
      rw [Notes.meet, if_pos hthrough, huid]
      refine ⟨rfl, ?_⟩
      simp only [List.getLast?_nil, Option.map_none, Option.getD_none] at hnUid hnUuid
      simp only [hnUid, hnUuid, readerUuid, List.nil_append, List.singleton_append,
        List.head?_cons, Option.map_some, Option.some.injEq, and_self, eq_comm]
  | some l =>
    -- a later row has the last row's user noted
    rw [hlast] at hnUid hnUuid
    have hle : l.uid ≤ r.uid := FeatureKey.uid_le <|
      (List.pairwise_append.mp (hsorted.sublist hpre.sublist)).2.2 l (List.mem_of_getLast? hlast) r
        (List.mem_singleton_self r)
    -- a row that is not let through is of that user
    cases hthrough : n.lets (q.columns r) with
    | false =>
      have hnot : ¬ n.uid < (q.columns r).uid := by
        intro hlt
        rw [Notes.lets, decide_eq_true hlt, Bool.true_or] at hthrough
        cases hthrough
      have hsame : l.uid = r.uid := by
        rw [huid, hnUid] at hnot
        exact le_antisymm hle (not_lt.mp hnot)
      rw [Notes.meet, if_neg (by rw [hthrough]; exact Bool.false_ne_true), ← hsame]
      exact ⟨hnUid, hnUuid⟩
    | true =>
      -- one that is let through has its user looked up, unless it is that one
      rw [Notes.meet, if_pos hthrough, huid]
      refine ⟨rfl, ?_⟩
      by_cases hsame : n.uid = r.uid
      · rw [if_pos hsame, hnUuid, ← hsame, hnUid]
        rfl
      · rw [if_neg hsame]
        refine (readerUuid_of_last hsorted hpre hlast fun heq => hsame ?_).symm
        rw [hnUid, ← heq]
        rfl

/-- A row that is not let through has some current row before it. -/
theorem before_ne_nil_of_lets
    (hcompared : (Notes.after uuidOf q before).row = none →
      (Notes.after uuidOf q before).lets (q.columns r) = true)
    (hlets : (Notes.after uuidOf q before).lets (q.columns r) = false) : before ≠ [] := by
  rintro rfl
  rw [hcompared rfl] at hlets
  cases hlets

/-- Along the cursor the notes are those of the last row. -/
theorem Notes.ofLast_after (hsorted : rows.Pairwise fun r r' => r.key ≤ r'.key)
    (huids : ∀ r ∈ rows, (q.columns r).uid = r.uid)
    (hcompared : ∀ before r, before ++ [r] <+: rows →
      (Notes.after uuidOf q before).OfLast uuidOf rows before →
      (Notes.after uuidOf q before).row = none →
      (Notes.after uuidOf q before).lets (q.columns r) = true) (hpre : before <+: rows) :
    (Notes.after uuidOf q before).OfLast uuidOf rows before := by
  induction before using List.reverseRecOn with
  | nil => exact ⟨rfl, rfl⟩
  | append_singleton before r ih =>
    have hlast := ih ((List.prefix_append _ _).trans hpre)
    obtain ⟨huid, huuid⟩ := hlast.meet hsorted hpre
      (huids r (hpre.subset (List.mem_append_right _ (List.mem_singleton_self r))))
      (before_ne_nil_of_lets (hcompared before r hpre hlast))
    rw [Notes.after_append]
    exact ⟨huid, huuid⟩

variable (uuidOf q before) in
theorem row_eq_none_iff : (Notes.after uuidOf q before).row = none ↔
    ∀ r ∈ before, r.isCurrent uuidOf = false := by
  rw [Notes.after_row, List.getLast?_eq_none_iff, List.filter_eq_nil_iff]
  simp only [Bool.not_eq_true]

/-- By the UUID of its user a row is taken for what it is, unless it is one of uid `-1` at the
start. -/
theorem readerUuid_tells_iff :
    (r.uuid = some (readerUuid uuidOf rows r.uid) ↔ r.isCurrent uuidOf = true) ↔
      ((rows.head?.map EigenRow.uid) = some (-1) → r.uid = -1 →
        (r.uuid = some "" ↔ r.uuid = some (uuidOf (-1)))) := by
  rw [EigenRow.isCurrent, decide_eq_true_iff, readerUuid]
  by_cases hfirst : r.uid = -1 ∧ (rows.head?.map EigenRow.uid) = some (-1)
  · rw [if_pos hfirst, hfirst.1]
    exact ⟨fun h _ _ => h, fun h => h hfirst.2 rfl⟩
  · rw [if_neg hfirst]
    exact iff_of_true Iff.rfl fun hhead huid => absurd ⟨huid, hhead⟩ hfirst

/-- A row of a cursor has some rows before it. -/
theorem exists_prefix_of_mem (hr : r ∈ rows) : ∃ before, before ++ [r] <+: rows := by
  obtain ⟨before, rest, rfl⟩ := List.append_of_mem hr
  exact ⟨before, rest, by simp⟩

/-- Once there is a current row, the row before one that is not let through is of the same user. -/
theorem Notes.OfLast.exists_last (hsorted : rows.Pairwise fun r r' => r.key ≤ r'.key)
    (hpre : before ++ [r] <+: rows)
    (h : (Notes.after uuidOf q before).OfLast uuidOf rows before) {v : EigenRow}
    (hv : (Notes.after uuidOf q before).row = some v)
    (hle : r.uid ≤ (Notes.after uuidOf q before).uid) :
    ∃ l, before.getLast? = some l ∧ l.uid = r.uid := by
  have hmem := List.mem_of_getLast? ((Notes.after_row uuidOf q before).symm.trans hv)
  have hne := List.ne_nil_of_mem (List.mem_filter.mp hmem).1
  have hl := List.getLast?_eq_some_getLast hne
  have hkey := (List.pairwise_append.mp (hsorted.sublist hpre.sublist)).2.2 _
    (List.mem_of_getLast? hl) r (List.mem_singleton_self r)
  rw [h.uid, hl] at hle
  exact ⟨_, hl, le_antisymm (FeatureKey.uid_le hkey) hle⟩

/-- By the notes of the last row a row is taken for what it is, unless it is misfiled. -/
theorem Notes.OfLast.tells (hsorted : rows.Pairwise fun r r' => r.key ≤ r'.key)
    (huids : ∀ r ∈ rows, (q.columns r).uid = r.uid) (hpre : before ++ [r] <+: rows)
    (h : (Notes.after uuidOf q before).OfLast uuidOf rows before)
    (hcompared : (Notes.after uuidOf q before).row = none →
      (Notes.after uuidOf q before).lets (q.columns r) = true)
    (hwhole : r.isCurrent uuidOf = true → q.ReadsWhole r)
    (hlookup : (rows.head?.map EigenRow.uid) = some (-1) → r.uid = -1 →
      (r.uuid = some "" ↔ r.uuid = some (uuidOf (-1))))
    (hfiled : ∀ v, ¬ Misfiled uuidOf before r v) :
    (Notes.after uuidOf q before).Tells uuidOf q r := by
  have hr : r ∈ rows := hpre.subset (List.mem_append_right _ (List.mem_singleton_self r))
  have hmeet := h.meet hsorted hpre (huids r hr) (before_ne_nil_of_lets hcompared)
  refine ⟨?_, hcompared, fun v hv hcur hlets => ?_⟩
  · have huuid := hmeet.uuid
    rw [List.getLast?_concat] at huuid
    rw [huuid]
    exact readerUuid_tells_iff.mpr hlookup
  · rw [(hwhole hcur).1] at hlets
    have hle : v.key ≤ r.key :=
      (List.pairwise_append.mp (hsorted.sublist hpre.sublist)).2.2 v (List.mem_filter.mp
        (List.mem_of_getLast? ((Notes.after_row uuidOf q before).symm.trans hv))).1 r
        (List.mem_singleton_self r)
    by_contra hkey
    -- no feature of this user is open: the row before it has only had its uid noted
    have huid : v.uid < r.uid := lt_of_le_of_ne (FeatureKey.uid_le hle) fun heq =>
      hkey (Notes.lets_of_uid_eq hle hv hlets heq)
    obtain ⟨hnoted, hbio, hdriver, hidx, huuid⟩ := (Notes.lets_eq_false_iff hv).mp hlets
    obtain ⟨l, hl, hluid⟩ := h.exists_last hsorted hpre hv hnoted
    exact hfiled v ⟨hcur, (Notes.after_row uuidOf q before).symm.trans hv,
      by rw [hl, Option.map_some, hluid], huid, huuid, hbio, hdriver, hidx⟩

/-- Up to the first current row, rows are compared with nothing. -/
theorem Notes.OfLast.lets_iff (huid : (q.columns r).uid = r.uid)
    (h : (Notes.after uuidOf q before).OfLast uuidOf rows before)
    (hrow : (Notes.after uuidOf q before).row = none) :
    (Notes.after uuidOf q before).lets (q.columns r) = true ↔
      (before.getLast?.map EigenRow.uid).getD (-1) < r.uid ∨ 0 ≤ (q.columns r).bioType := by
  rw [lets_iff_of_fresh hrow, h.uid, huid]

/-- Where every uid comes through whole, the rows say when the loop is right. -/
theorem readsTrue_iff_filesTrue (hsorted : rows.Pairwise fun r r' => r.key ≤ r'.key)
    (huids : ∀ r ∈ rows, (q.columns r).uid = r.uid) :
    ReadsTrue uuidOf q rows ↔ FilesTrue uuidOf q rows := by
  have hmem : ∀ before r, before ++ [r] <+: rows → before <+: rows ∧ r ∈ rows := fun _ _ hpre =>
    ⟨(List.prefix_append _ _).trans hpre,
      hpre.subset (List.mem_append_right _ (List.mem_singleton_self _))⟩
  -- the loop is right, and the notes are those of the last row
  constructor
  · intro h
    have hlast : ∀ before, before <+: rows →
        (Notes.after uuidOf q before).OfLast uuidOf rows before := fun before =>
      Notes.ofLast_after hsorted huids fun b r hb _ => (h.told b r hb).compared
    refine ⟨h.whole, fun hhead r hr hr' => ?_, fun before r hpre hstale => ?_,
      fun before r v hpre hmis => ?_⟩
    · -- the UUID noted at a row is the one looked up for its user
      obtain ⟨before, hpre⟩ := exists_prefix_of_mem hr
      have hmeet := ((hlast _ (hmem _ _ hpre).1).meet hsorted hpre (huids r hr)
        (before_ne_nil_of_lets (h.told before r hpre).compared)).uuid
      rw [List.getLast?_concat] at hmeet
      have hlookup := (h.told before r hpre).lookup
      rw [hmeet] at hlookup
      exact readerUuid_tells_iff.mp hlookup hhead hr'
    · -- without a current row, a row is compared with the initial values
      obtain ⟨hbefore, hr⟩ := hmem _ _ hpre
      have hrow := (row_eq_none_iff uuidOf q before).mpr hstale
      exact ((hlast _ hbefore).lets_iff (huids r hr) hrow).mp ((h.told before r hpre).compared hrow)
    · -- a misfiled row is not let through, and so has the key of a row of another user
      obtain ⟨hbefore, hr⟩ := hmem _ _ hpre
      have hv := (Notes.after_row uuidOf q before).trans hmis.last
      have hlets : (Notes.after uuidOf q before).lets (q.columns r) = false := by
        rw [(h.whole r hr hmis.current).1, Notes.lets_eq_false_iff hv, (hlast _ hbefore).uid,
          hmis.between]
        exact ⟨le_rfl, hmis.bioType, hmis.driver, hmis.eigenIndex, hmis.uuid⟩
      have hkey := (h.told before r hpre).filed v hv hmis.current hlets
      exact hmis.uid.ne (EigenRow.key_eq_iff.mp hkey).1
  · intro h
    -- the notes before a row are those of the last row by then, so that they decide about it
    have hcompared : ∀ before r, before ++ [r] <+: rows →
        (Notes.after uuidOf q before).OfLast uuidOf rows before →
        (Notes.after uuidOf q before).row = none →
        (Notes.after uuidOf q before).lets (q.columns r) = true := fun before r hpre hlast hrow =>
      (hlast.lets_iff (huids r (hmem _ _ hpre).2) hrow).mpr
        (h.starts before r hpre ((row_eq_none_iff uuidOf q before).mp hrow))
    refine ⟨h.whole, fun before r hpre => ?_⟩
    obtain ⟨hbefore, hr⟩ := hmem _ _ hpre
    have hlast := Notes.ofLast_after hsorted huids hcompared hbefore
    exact hlast.tells hsorted huids hpre (hcompared before r hpre hlast) (h.whole r hr)
      (fun hhead => h.lookup hhead r hr) fun v => h.filed before r v hpre

end Uids
/-! ### The reader -/

/-- The reader returns the documented list exactly along a cursor of `ReadsTrue`. -/
theorem reads_iff_readsTrue {uuidOf : ℤ → String} {db : EigenInfo} {q : FeatureQuery}
    (huuid : ∀ r ∈ db.rows, r.uuid ≠ none) :
    bioStoGetFeatureInfo uuidOf db q = some (currentFeatures uuidOf db q) ↔
      ReadsTrue uuidOf q (selectRows db q) := by
  have hsorted := selectRows_sorted db q
  have huuid' : ∀ r ∈ selectRows db q, r.uuid ≠ none := fun r hr =>
    huuid r (mem_selectRows.mp hr).1
  constructor
  · -- the list is the documented one, so every current row was read whole
    intro h
    have hwhole : ∀ r ∈ selectRows db q, r.isCurrent uuidOf = true → q.ReadsWhole r :=
      fun r hr hcur => readsWhole_of_currentFeatures h (List.mem_filter.mpr ⟨hr, hcur⟩)
    have hread : ∀ r ∈ currentRows uuidOf db q, q.ReadsWhole r :=
      fun r hr => readsWhole_of_currentFeatures h hr
    -- and told apart by the cursor
    refine ⟨hwhole, told_of_readRows hsorted huuid'
      (fun r hr hcur => (hwhole r hr hcur).1) (selectRows_ids_nodup db q) ?_⟩
    rw [currentFeatures_eq, storedFeatures_eq fun r hr => (hread r hr).2] at h
    exact h
  · -- the other way the cursor files each row where the list has it
    intro h
    have hint : ∀ r ∈ currentRows uuidOf db q, IsCInt r.sampleNo := fun r hr =>
      (h.whole r (List.mem_filter.mp hr).1 (List.mem_filter.mp hr).2).2
    rw [currentFeatures_eq, storedFeatures_eq hint]
    exact readRows_of_readsTrue hsorted huuid' h

/-- **Exactly when the reader is right**: it returns the current rows the filter selects, sorted and
grouped by feature, if and only if they come through whole and the loop takes every row of the
cursor for what it is. Where every uid comes through whole, the rows of the cursor say when that
is. -/
theorem bioStoGetFeatureInfo_eq_iff (uuidOf : ℤ → String) (db : EigenInfo) (q : FeatureQuery)
    (huuid : ∀ r ∈ db.rows, r.uuid ≠ none) :
    (bioStoGetFeatureInfo uuidOf db q = some (currentFeatures uuidOf db q) ↔
      ReadsTrue uuidOf q (selectRows db q)) ∧
    ((∀ r ∈ selectRows db q, (q.columns r).uid = r.uid) →
      (bioStoGetFeatureInfo uuidOf db q = some (currentFeatures uuidOf db q) ↔
        FilesTrue uuidOf q (selectRows db q))) :=
  ⟨reads_iff_readsTrue huuid, fun huids => (reads_iff_readsTrue huuid).trans
    (readsTrue_iff_filesTrue (selectRows_sorted db q) huids)⟩

/-- A table in which user `1` has a stale row and, under the UUID given to users
without a home directory, a row like one of user `0`. -/
def sharedUuidTable : EigenInfo :=
  ((EigenInfo.empty.insert 0 "01234567-0123-0123-0123-0123456789AB" 0 "uru4000" 0 "a" 5 []).insert
    1 "0011aa22-33bb-4455-8866-77cc88dd99ee" 0 "uru4000" 0 "b" 6 []).insert
    1 "01234567-0123-0123-0123-0123456789AB" 0 "uru4000" 0 "c" 7 []

/-- Listing all users of that table puts the row of user `1` into the feature of
user `0`. -/
theorem bioStoGetFeatureInfo_sharedUuid :
    (∀ r ∈ sharedUuidTable.rows, 0 ≤ r.bioType ∧ r.uuid ≠ none) ∧
    bioStoGetFeatureInfo (fun _ => "01234567-0123-0123-0123-0123456789AB") sharedUuidTable
        ⟨-1, -1, none, 0, -1⟩ =
      some [⟨0, 0, "uru4000", 0, "a", [⟨1, 5, []⟩, ⟨3, 7, []⟩]⟩] ∧
    currentFeatures (fun _ => "01234567-0123-0123-0123-0123456789AB") sharedUuidTable
        ⟨-1, -1, none, 0, -1⟩ =
      [⟨0, 0, "uru4000", 0, "a", [⟨1, 5, []⟩]⟩, ⟨1, 0, "uru4000", 0, "c", [⟨3, 7, []⟩]⟩] := by
  decide

/-- `bioStoGetFeatureInfo_eq_iff` on that table: the listing is neither `ReadsTrue` nor
`FilesTrue`. -/
theorem not_readsTrue_sharedUuid :
    ¬ ReadsTrue (fun _ => "01234567-0123-0123-0123-0123456789AB") ⟨-1, -1, none, 0, -1⟩
      (selectRows sharedUuidTable ⟨-1, -1, none, 0, -1⟩) ∧
    ¬ FilesTrue (fun _ => "01234567-0123-0123-0123-0123456789AB") ⟨-1, -1, none, 0, -1⟩
      (selectRows sharedUuidTable ⟨-1, -1, none, 0, -1⟩) := by
  have hwrong : ¬ bioStoGetFeatureInfo (fun _ => "01234567-0123-0123-0123-0123456789AB")
      sharedUuidTable ⟨-1, -1, none, 0, -1⟩ =
        some (currentFeatures (fun _ => "01234567-0123-0123-0123-0123456789AB") sharedUuidTable
          ⟨-1, -1, none, 0, -1⟩) := by decide
  obtain ⟨hreads, hfiles⟩ := bioStoGetFeatureInfo_eq_iff
    (fun _ => "01234567-0123-0123-0123-0123456789AB") sharedUuidTable ⟨-1, -1, none, 0, -1⟩
    (by decide)
  exact ⟨fun h => hwrong (hreads.mpr h), fun h => hwrong ((hfiles (by decide)).mpr h)⟩

/-- Another way to misread: an index of more than 32 bits is listed as the number its lower bits
make. -/
example : bioStoGetFeatureInfo (fun _ => "u")
    (EigenInfo.empty.insert 0 "u" 0 "uru4000" 4294967299 "a" 1 []) ⟨0, 0, none, 0, -1⟩ =
      some [⟨0, 0, "uru4000", 3, "a", [⟨1, 1, []⟩]⟩] := by decide

end BiometricAuth
