import BiometricAuth.Common.FiledRows

/-!
# What a rename changes

`bio_comm_feature_rename_by_db` reads the feature with the wanted uid and index and gives the
new name to one row after the other, by its `ID`. An `UPDATE` takes two SQL calls, and the loop
goes on when one of them fails.

An update also writes back the number of the sample, as the reader made it of the column
`SampleNo`. And a selected row without a UUID, the one column that may be `NULL`, crashes the
reader.

Main results:

* `bioCommFeatureRenameByDb_eq`: what a rename does, for any outcomes of the SQL calls;
* `bioCommFeatureRenameByDb_renames_iff`: when a rename returns the number of failed updates and
  has changed names only.
-/

namespace BiometricAuth

/-! ### The updates -/

/-- Which of a number of `UPDATE`s succeed. -/
def updateResults : ℕ → List Bool → List Bool
  | 0, _ => []
  | n + 1, outcomes => (nextStatement outcomes).1 :: updateResults n (nextStatement outcomes).2

theorem updateResults_length (n : ℕ) (outcomes : List Bool) :
    (updateResults n outcomes).length = n := by
  induction n generalizing outcomes with
  | zero => rfl
  | succ n ih => rw [updateResults, List.length_cons, ih]

/-- A list with what the `UPDATE` of each entry comes to. -/
def updatesOf {α : Type} (todo : List α) (outcomes : List Bool) : List (α × Bool) :=
  todo.zip (updateResults todo.length outcomes)

section Updates

variable {α β : Type}

theorem updatesOf_cons (a : α) (todo : List α) (outcomes : List Bool) :
    updatesOf (a :: todo) outcomes =
      (a, (nextStatement outcomes).1) :: updatesOf todo (nextStatement outcomes).2 := rfl

theorem updatesOf_map (f : α → β) (todo : List α) (outcomes : List Bool) :
    updatesOf (todo.map f) outcomes = (updatesOf todo outcomes).map (Prod.map f id) := by
  rw [updatesOf, updatesOf, List.length_map, List.zip_map_left]

theorem updatesOf_map_fst (todo : List α) (outcomes : List Bool) :
    (updatesOf todo outcomes).map Prod.fst = todo :=
  List.map_fst_zip (updateResults_length _ _).ge

theorem updatesOf_map_snd (todo : List α) (outcomes : List Bool) :
    (updatesOf todo outcomes).map Prod.snd = updateResults todo.length outcomes :=
  List.map_snd_zip (updateResults_length _ _).le

/-- Further entries leave the first ones what they were. -/
theorem exists_updatesOf_append (todo todo' : List α) (outcomes : List Bool) :
    ∃ rest, updatesOf (todo ++ todo') outcomes =
      updatesOf todo outcomes ++ updatesOf todo' rest := by
  induction todo generalizing outcomes with
  | nil => exact ⟨outcomes, rfl⟩
  | cons a todo ih =>
    obtain ⟨rest, hrest⟩ := ih (nextStatement outcomes).2
    exact ⟨rest, by rw [List.cons_append, updatesOf_cons, updatesOf_cons, hrest, List.cons_append]⟩

/-- The updates that fail are those that do not succeed. -/
theorem countP_failed (updates : List (α × Bool)) :
    (updates.countP fun u => u.2 = false) = (updates.length : ℤ) - updates.countP Prod.snd := by
  have hsplit := List.length_eq_countP_add_countP (p := Prod.snd) (l := updates)
  have hfailed : updates.countP (fun u => decide ¬ u.2 = true) =
      updates.countP fun u => decide (u.2 = false) := by
    refine List.countP_congr fun u _ => ?_
    simp
  rw [hfailed] at hsplit
  omega

end Updates

/-- What an update makes of the row of its sample: it sets the number too, as it was read. -/
def EigenRow.refiled (dev : BioDev) (uid idx : ℤ) (newName : String) (r : EigenRow) : EigenRow :=
  { r with
    uid := uid
    bioType := dev.biotype.code
    driver := dev.deviceName
    eigenIndex := idx
    eigenIndexName := newName
    sampleNo := columnInt r.sampleNo }

/-- A row of the feature whose sample has an `int` for its number loses its old name only. -/
theorem EigenRow.refiled_of_key {uuidOf : ℤ → String} {r : EigenRow} {dev : BioDev} {uid idx : ℤ}
    (hkey : r.key = featureKey uuidOf dev uid idx) (hno : IsCInt r.sampleNo) (newName : String) :
    r.refiled dev uid idx newName = { r with eigenIndexName := newName } := by
  obtain ⟨huid, -, hbio, hdriver, hidx⟩ := FeatureKey.mk.inj hkey
  rw [EigenRow.refiled, ← huid, ← hbio, ← hdriver, ← hidx, columnInt_of_isCInt hno]

section Loop

variable (dev : BioDev) (uid idx : ℤ) (newName : String)

/-- The rows after some updates, found by their `ID`. -/
def refileRows (updates : List (FeatureSample × Bool)) (rows : List EigenRow) : List EigenRow :=
  rows.map fun r =>
    if ∃ u ∈ updates, u.1.dbid = r.id ∧ u.2 = true then r.refiled dev uid idx newName else r

/-- The number of a sample is what the reader makes of that of the row it is found by. -/
def NumbersAgree (rows : List EigenRow) (s : FeatureSample) : Prop :=
  ∀ r ∈ rows, r.id = s.dbid → columnInt r.sampleNo = s.no

/-- One update: on the row of the sample, and on nothing if it fails. -/
theorem renameSample_eq {c : Store} (n m : ℤ) {s : FeatureSample}
    (h : NumbersAgree c.db.rows s) :
    ∃ db, renameSample dev uid idx newName (c, n, m) s =
        (⟨db, (nextStatement c.outcomes).2⟩, n + 1,
          if (nextStatement c.outcomes).1 = true then m + 1 else m) ∧
      db.seq = c.db.seq ∧
      db.rows = refileRows dev uid idx newName [(s, (nextStatement c.outcomes).1)] c.db.rows := by
  unfold renameSample
  simp only [bioStoUpdateFeatureInfoByDbid_eq]
  cases hupdate : (nextStatement c.outcomes).1 with
  | false => exact ⟨c.db, rfl, rfl, by simp [refileRows]⟩
  | true =>
    refine ⟨_, rfl, rfl, List.map_congr_left fun r hr => ?_⟩
    have hcond : (∃ u ∈ [(s, true)], u.1.dbid = r.id ∧ u.2 = true) ↔ r.id = s.dbid := by
      simp only [List.mem_singleton, exists_eq_left, and_true]
      exact eq_comm
    by_cases hid : r.id = s.dbid
    · rw [if_pos hid, if_pos (hcond.mpr hid), EigenRow.refiled, ← h r hr hid]
    · rw [if_neg hid, if_neg (hcond.not.mpr hid)]

/-- Updates one after the other are all of them at once. -/
theorem refileRows_cons (u : FeatureSample × Bool) (updates : List (FeatureSample × Bool))
    (rows : List EigenRow) :
    refileRows dev uid idx newName updates (refileRows dev uid idx newName [u] rows) =
      refileRows dev uid idx newName (u :: updates) rows := by
  unfold refileRows
  rw [List.map_map]
  refine List.map_congr_left fun r _ => ?_
  have hcons : (∃ v ∈ u :: updates, v.1.dbid = r.id ∧ v.2 = true) ↔
      (u.1.dbid = r.id ∧ u.2 = true) ∨ ∃ v ∈ updates, v.1.dbid = r.id ∧ v.2 = true := by
    simp
  simp only [Function.comp_apply, List.mem_singleton, exists_eq_left, hcons]
  by_cases hu : u.1.dbid = r.id ∧ u.2 = true
  · -- updated now, and perhaps once more
    rw [if_pos hu, if_pos (Or.inl hu)]
    split
    · rw [EigenRow.refiled, EigenRow.refiled, columnInt_columnInt]
    · rfl
  · rw [if_neg hu]
    simp only [hu, false_or]

variable {dev uid idx newName}

/-- No update changes what the reader makes of the number of a sample. -/
theorem NumbersAgree.refileRows {rows : List EigenRow} {s : FeatureSample}
    (h : NumbersAgree rows s) (updates : List (FeatureSample × Bool)) :
    NumbersAgree (refileRows dev uid idx newName updates rows) s := by
  intro r' hr' hid
  obtain ⟨r, hr, rfl⟩ := List.mem_map.mp hr'
  split at hid
  next hu =>
    rw [if_pos hu]
    exact (columnInt_columnInt _).trans (h r hr hid)
  next hu =>
    rw [if_neg hu]
    exact h r hr hid

variable (dev uid idx newName) in
/-- **The loop.** Each sample of the list gets its `UPDATE`, whatever the ones before it came
to. -/
theorem renameSamples_eq {todo : List FeatureSample} (c : Store) (n m : ℤ)
    (h : ∀ s ∈ todo, NumbersAgree c.db.rows s) :
    ∃ c', todo.foldl (renameSample dev uid idx newName) (c, n, m) =
        (c', n + todo.length, m + (updatesOf todo c.outcomes).countP Prod.snd) ∧
      c'.db.seq = c.db.seq ∧
      c'.db.rows = refileRows dev uid idx newName (updatesOf todo c.outcomes) c.db.rows := by
  induction todo generalizing c n m with
  | nil =>
    refine ⟨c, ?_, rfl, ?_⟩
    · simp [updatesOf]
    · simp [updatesOf, refileRows]
  | cons s todo ih =>
    obtain ⟨db, hsample, hseq, hrows⟩ :=
      renameSample_eq dev uid idx newName n m (h s List.mem_cons_self)
    -- the numbers of the other samples stay what they are
    have hagree : ∀ s' ∈ todo, NumbersAgree db.rows s' := by
      intro s' hs'
      rw [hrows]
      exact (h s' (List.mem_cons_of_mem s hs')).refileRows _
    obtain ⟨c', hloop, hseq', hrows'⟩ := ih ⟨db, (nextStatement c.outcomes).2⟩ (n + 1)
      (if (nextStatement c.outcomes).1 = true then m + 1 else m) hagree
    -- one statement more, and one success more if it was executed
    refine ⟨c', ?_, hseq'.trans hseq, ?_⟩
    · rw [List.foldl_cons, hsample, hloop, updatesOf_cons, List.countP_cons, List.length_cons]
      refine Prod.ext rfl (Prod.ext ?_ ?_)
      · push_cast
        ring
      · show (if (nextStatement c.outcomes).1 = true then m + 1 else m) + _ = _
        split
        · push_cast
          ring
        · simp
    · rw [hrows', hrows, refileRows_cons, updatesOf_cons]

end Loop

/-- The updates of a rename: those of the listed samples with the wanted uid and index. -/
def renameUpdates (c : Store) (infos : List FeatureInfo) (uid idx : ℤ) :
    List (FeatureSample × Bool) :=
  updatesOf (renameTargets infos uid idx) c.outcomes

/-- **A rename**, for any user: the listed samples are updated, and the number of the updates
that failed is returned. -/
theorem bioCommFeatureRenameByDb_eq {uuidOf : ℤ → String} {c : Store} {dev : BioDev}
    {uid idx : ℤ} (newName : String) {infos : List FeatureInfo}
    (hread : bioStoGetFeatureInfo uuidOf c.db (dev.query uid idx idx) = some infos) :
    ∃ c', bioCommFeatureRenameByDb uuidOf c dev uid idx newName =
        some ((((renameUpdates c infos uid idx).countP fun u => u.2 = false : ℕ) : ℤ), c') ∧
      c'.db.seq = c.db.seq ∧
      c'.db.rows = refileRows dev uid idx newName (renameUpdates c infos uid idx) c.db.rows := by
  -- a sample of the list is one of the table
  have hagree : ∀ s ∈ renameTargets infos uid idx, NumbersAgree c.db.rows s := by
    intro s htarget r hr hid
    obtain ⟨info, hinfo, hs⟩ := List.mem_flatMap.mp htarget
    obtain ⟨st, hst, rfl⟩ := Option.map_eq_some_iff.mp hread
    obtain ⟨r', hr', rfl⟩ :=
      exists_row_of_mem_readSamples hst info (List.mem_filter.mp hinfo).1 s hs
    obtain ⟨r₀, hr₀, rfl⟩ := List.mem_map.mp hr'
    rw [EigenInfo.eq_of_id_eq hr (mem_selectRows.mp hr₀).1 hid]
    rfl
  obtain ⟨c', hloop, hseq, hrows⟩ := renameSamples_eq dev uid idx newName c 0 0 hagree
  refine ⟨c', ?_, hseq, hrows⟩
  have hlength : (renameUpdates c infos uid idx).length = (renameTargets infos uid idx).length := by
    rw [← updatesOf_map_fst (renameTargets infos uid idx) c.outcomes, List.length_map]
    rfl
  unfold bioCommFeatureRenameByDb
  rw [hread, Option.bind_eq_bind, Option.bind_some, renameInfos_eq, hloop, countP_failed, hlength]
  simp only [zero_add, renameUpdates]

/-! ### The whole rename -/

/-- What is asked of a rename: the rows of the feature, and no others, get their `UPDATE`; those
whose `UPDATE` succeeds have the new name and are otherwise as they were, as all others are; and
the number of the failed ones is returned. -/
structure RenamesOnly (uuidOf : ℤ → String) (c : Store) (dev : BioDev) (uid idx : ℤ)
    (newName : String) (updates : List (EigenRow × Bool)) (ret : ℤ) (c' : Store) : Prop where
  targets : (updates.map Prod.fst).Perm
    (c.db.rows.filter fun r => r.key = featureKey uuidOf dev uid idx)
  results : updates.map Prod.snd = updateResults updates.length c.outcomes
  rows : c'.db.rows = c.db.rows.map fun r =>
    if (r, true) ∈ updates then { r with eigenIndexName := newName } else r
  seq : c'.db.seq = c.db.seq
  returns : ret = updates.countP fun u => u.2 = false
  renamed : (∀ u ∈ updates, u.2 = true) →
    ∀ r ∈ c'.db.rows, r.key = featureKey uuidOf dev uid idx → r.eigenIndexName = newName

section Rename

variable {uuidOf : ℤ → String} {c : Store} {dev : BioDev} {uid idx : ℤ} {newName : String}

/-- A row of the table is found by its `ID` exactly if it is the row of an update. -/
theorem exists_update_iff {updates : List (EigenRow × Bool)} {db : EigenInfo}
    (hmem : ∀ u ∈ updates, u.1 ∈ db.rows) {r : EigenRow} (hr : r ∈ db.rows) :
    (∃ u ∈ updates.map (Prod.map EigenRow.toSample id), u.1.dbid = r.id ∧ u.2 = true) ↔
      (r, true) ∈ updates := by
  constructor
  · rintro ⟨u, hu, hid, htrue⟩
    obtain ⟨⟨r', b⟩, hu', rfl⟩ := List.mem_map.mp hu
    obtain rfl := EigenInfo.eq_of_id_eq (hmem _ hu') hr hid
    obtain rfl : b = true := htrue
    exact hu'
  · exact fun hu => ⟨(r.toSample, true), List.mem_map_of_mem hu, rfl, rfl⟩

/-- What the rename does when the reader gets through: each row filed under the index gets its
`UPDATE`. -/
theorem bioCommFeatureRenameByDb_refiles (newName : String) (huid : uid ≠ -1)
    (huuid : ∀ r ∈ c.db.rows, (dev.query uid idx idx).selects r = true → r.uuid ≠ none) :
    ∃ c', bioCommFeatureRenameByDb uuidOf c dev uid idx newName =
        some ((((updatesOf (filedRows uuidOf c.db dev uid idx) c.outcomes).countP
          fun u => u.2 = false : ℕ) : ℤ), c') ∧
      c'.db.seq = c.db.seq ∧
      c'.db.rows = c.db.rows.map fun r =>
        if (r, true) ∈ updatesOf (filedRows uuidOf c.db dev uid idx) c.outcomes then
          r.refiled dev uid idx newName
        else r := by
  -- the reader gets through, and the updates are those of the samples it has filed
  have hread := (bioStoGetFeatureInfo_eq_some_iff uuidOf (q := dev.query uid idx idx) huid
    dev.biotype.code_nonneg).mpr ⟨rfl, huuid⟩
  obtain ⟨c', hret, hseq, hrows⟩ := bioCommFeatureRenameByDb_eq newName hread
  set todo := filedRows uuidOf c.db dev uid idx with htodo
  -- these are the rows that were filed, in the order of the list
  have hsamples : renameUpdates c (userFeatures uuidOf c.db (dev.query uid idx idx)) uid idx =
      (updatesOf todo c.outcomes).map (Prod.map EigenRow.toSample id) := by
    rw [renameUpdates, renameTargets_userFeatures c.db huid, updatesOf_map]
  -- each of them is a row of the table
  have hmem : ∀ u ∈ updatesOf todo c.outcomes, u.1 ∈ c.db.rows := by
    intro u hu
    have hfst := List.mem_map_of_mem (f := Prod.fst) hu
    rw [updatesOf_map_fst] at hfst
    exact (mem_currentRows.mp (List.mem_filter.mp hfst).1).1
  rw [hsamples] at hret hrows
  refine ⟨c', ?_, hseq, ?_⟩
  · -- the return value counts the updates that failed
    rw [hret, List.countP_map]
    rfl
  · -- a row is changed if an update names its id
    rw [hrows]
    exact List.map_congr_left fun r hr => if_congr (exists_update_iff hmem hr) rfl rfl

variable (uuidOf) in
/-- What the rename does when nothing else comes under the index. -/
theorem bioCommFeatureRenameByDb_renamesOnly (newName : String) (huid : 0 ≤ uid)
    (huuid : ∀ r ∈ c.db.rows, (dev.query uid idx idx).selects r = true → r.uuid ≠ none)
    (hapart : FiledApart uuidOf c.db dev uid idx)
    (hnos : ∀ r, (r, true) ∈ updatesOf (renamedRows uuidOf c.db dev uid idx) c.outcomes →
      IsCInt r.sampleNo) :
    ∃ ret c', bioCommFeatureRenameByDb uuidOf c dev uid idx newName = some (ret, c') ∧
      RenamesOnly uuidOf c dev uid idx newName
        (updatesOf (renamedRows uuidOf c.db dev uid idx) c.outcomes) ret c' := by
  have huid' : uid ≠ -1 := by omega
  obtain ⟨c', hret, hseq, hrows⟩ := bioCommFeatureRenameByDb_refiles newName huid' huuid
  rw [filedRows_eq_renamedRows huid' hapart] at hret hrows
  set todo := renamedRows uuidOf c.db dev uid idx with htodo
  set updates := updatesOf todo c.outcomes with hupdates
  -- every update is one of a row of the feature
  have hmem : ∀ u ∈ updates, u.1 ∈ c.db.rows ∧ u.1.key = featureKey uuidOf dev uid idx := by
    intro u hu
    have hfst := List.mem_map_of_mem (f := Prod.fst) hu
    rw [updatesOf_map_fst] at hfst
    exact (mem_renamedRows huid').mp hfst
  have hrows' : c'.db.rows = c.db.rows.map fun r =>
      if (r, true) ∈ updates then { r with eigenIndexName := newName } else r := by
    rw [hrows]
    refine List.map_congr_left fun r hr => ?_
    by_cases hu : (r, true) ∈ updates
    · -- the row has what its update sets
      rw [if_pos hu, if_pos hu, EigenRow.refiled_of_key (hmem _ hu).2 (hnos r hu)]
    · rw [if_neg hu, if_neg hu]
  -- and every row of the feature has one
  have htargets : (updates.map Prod.fst).Perm
      (c.db.rows.filter fun r => r.key = featureKey uuidOf dev uid idx) := by
    rw [updatesOf_map_fst]
    refine (List.perm_ext_iff_of_nodup (renamedRows_nodup _ _ _ _ _)
      ((List.Nodup.of_map _ c.db.ids_nodup).filter _)).mpr fun r => ?_
    rw [mem_renamedRows huid', List.mem_filter, decide_eq_true_eq]
  refine ⟨_, c', hret, htargets, ?_, hrows', hseq, rfl, ?_⟩
  · rw [updatesOf_map_snd, ← updatesOf_map_fst todo c.outcomes, List.length_map]
  · -- if all are executed, every row that is in the feature afterwards was in it before, and has
    -- the name
    intro hall r' hr' hkey
    rw [hrows'] at hr'
    obtain ⟨r, hr, rfl⟩ := List.mem_map.mp hr'
    have hkey' : r.key = featureKey uuidOf dev uid idx := by
      rw [← hkey]
      split <;> rfl
    have hfst : r ∈ updates.map Prod.fst :=
      htargets.mem_iff.mpr (List.mem_filter.mpr ⟨hr, decide_eq_true hkey'⟩)
    obtain ⟨u, hu, rfl⟩ := List.mem_map.mp hfst
    have htrue : (u.1, true) ∈ updates := by
      rw [← hall u hu]
      exact hu
    rw [if_pos htrue]

/-- A rename that has done what is asked was about the rows of the feature alone, and has given no
sample another number. -/
theorem RenamesOnly.conditions {updates : List (EigenRow × Bool)} {ret : ℤ} {c' : Store}
    (h : RenamesOnly uuidOf c dev uid idx newName updates ret c') (huid : uid ≠ -1)
    (hret : bioCommFeatureRenameByDb uuidOf c dev uid idx newName = some (ret, c')) :
    FiledApart uuidOf c.db dev uid idx ∧
      ∀ r, (r, true) ∈ updatesOf (renamedRows uuidOf c.db dev uid idx) c.outcomes →
        IsCInt r.sampleNo := by
  obtain ⟨infos, hread, -⟩ := Option.bind_eq_some_iff.mp hret
  have huuid := (exists_bioStoGetFeatureInfo_iff uuidOf
    (show 0 ≤ (dev.query uid idx idx).biotype from dev.biotype.code_nonneg)).mp ⟨infos, hread⟩
  obtain ⟨c₁, hret₁, -, hrows⟩ := bioCommFeatureRenameByDb_refiles newName huid huuid
  obtain ⟨hcount, rfl⟩ := Prod.mk.inj (Option.some.inj (hret₁.symm.trans hret))
  set todo := renamedRows uuidOf c.db dev uid idx with htodo
  set others := (filedRows uuidOf c.db dev uid idx).filter fun r => r.eigenIndex ≠ idx with hothers
  obtain ⟨rest, hrest⟩ := exists_updatesOf_append todo others c.outcomes
  have hfiled : filedRows uuidOf c.db dev uid idx = todo ++ others := filedRows_eq_append c.db huid
  rw [hfiled, hrest] at hcount hrows
  -- a row that is updated keeps its index and the number of its sample
  have hkept : ∀ r ∈ c.db.rows, (r, true) ∈ updatesOf todo c.outcomes ++ updatesOf others rest →
      r.eigenIndex = idx ∧ columnInt r.sampleNo = r.sampleNo := by
    intro r hr hu
    have heq := List.map_inj_left.mp (hrows.symm.trans h.rows) r hr
    rw [if_pos hu] at heq
    have hidx := congrArg EigenRow.eigenIndex heq
    have hno := congrArg EigenRow.sampleNo heq
    rw [EigenRow.refiled] at hidx hno
    split at hidx
    · exact ⟨hidx.symm, hno.trans (by split <;> rfl)⟩
    · exact ⟨hidx.symm, hno.trans (by split <;> rfl)⟩
  have hrow : ∀ r ∈ filedRows uuidOf c.db dev uid idx, r ∈ c.db.rows := fun r hr =>
    (mem_currentRows.mp (List.mem_filter.mp hr).1).1
  -- as many updates have failed as of the rows of the feature alone
  have hlength : updates.length = todo.length := by
    have hperm := h.targets.length_eq
    rw [List.length_map] at hperm
    rw [hperm]
    refine (List.Perm.length_eq ?_).symm
    refine (List.perm_ext_iff_of_nodup (renamedRows_nodup _ _ _ _ _)
      ((List.Nodup.of_map _ c.db.ids_nodup).filter _)).mpr fun r => ?_
    rw [mem_renamedRows huid, List.mem_filter, decide_eq_true_eq]
  have hfailed : updates.countP (fun u => u.2 = false) =
      (updatesOf todo c.outcomes).countP fun u => u.2 = false := by
    have hsnd : ∀ us : List (EigenRow × Bool), us.countP (fun u => u.2 = false) =
        (us.map Prod.snd).countP fun b => b = false := fun us => by
      rw [List.countP_map]
      rfl
    rw [hsnd, hsnd, h.results, updatesOf_map_snd, hlength]
  rw [List.countP_append, h.returns, hfailed] at hcount
  have hzero : (updatesOf others rest).countP (fun u => u.2 = false) = 0 := by
    push_cast at hcount
    omega
  -- no other row comes under the index
  refine ⟨(filedApart_iff huid).mpr fun r hr hunder => ?_, fun r hu => ?_⟩
  · -- another row would have been updated too
    by_contra hne
    have hmem : r ∈ filedRows uuidOf c.db dev uid idx :=
      List.mem_filter.mpr ⟨hr, decide_eq_true hunder⟩
    have hother : r ∈ (updatesOf others rest).map Prod.fst := by
      rw [updatesOf_map_fst]
      exact List.mem_filter.mpr ⟨hmem, decide_eq_true hne⟩
    obtain ⟨u, hu, rfl⟩ := List.mem_map.mp hother
    have htrue : u.2 = true := by
      have := List.countP_eq_zero.mp hzero u hu
      simpa using this
    exact hne (hkept u.1 (hrow u.1 hmem)
      (List.mem_append_right _ (by rw [← htrue]; exact hu))).1
  · -- and the row that is updated keeps its number
    have hfst := List.mem_map_of_mem (f := Prod.fst) hu
    rw [updatesOf_map_fst] at hfst
    have hmem : r ∈ c.db.rows := ((mem_renamedRows huid).mp hfst).1
    exact columnInt_eq_self_iff.mp (hkept r hmem (List.mem_append_left _ hu)).2

/-- **What a rename changes.** For a user, a rename returns the number of the rows of the
feature that it could not update, and has changed names of such rows only, exactly if none of
the rows that the reader's query selects is without a UUID, no large index comes under `-1`, and
the numbers of the samples it updates are `int`s. -/
theorem bioCommFeatureRenameByDb_renames_iff (uuidOf : ℤ → String) (c : Store) (dev : BioDev)
    (uid idx : ℤ) (newName : String) (huid : 0 ≤ uid) :
    (∃ ret c' updates, bioCommFeatureRenameByDb uuidOf c dev uid idx newName = some (ret, c') ∧
        RenamesOnly uuidOf c dev uid idx newName updates ret c') ↔
      (∀ r ∈ c.db.rows, (dev.query uid idx idx).selects r = true → r.uuid ≠ none) ∧
      FiledApart uuidOf c.db dev uid idx ∧
      ∀ r, (r, true) ∈ updatesOf (renamedRows uuidOf c.db dev uid idx) c.outcomes →
        IsCInt r.sampleNo := by
  constructor
  · rintro ⟨ret, c', updates, hret, hrenames⟩
    obtain ⟨infos, hread, -⟩ := Option.bind_eq_some_iff.mp hret
    exact ⟨(exists_bioStoGetFeatureInfo_iff uuidOf
      (show 0 ≤ (dev.query uid idx idx).biotype from dev.biotype.code_nonneg)).mp ⟨infos, hread⟩,
      hrenames.conditions (by omega) hret⟩
  · rintro ⟨huuid, hapart, hnos⟩
    obtain ⟨ret, c', hret, hrenames⟩ :=
      bioCommFeatureRenameByDb_renamesOnly uuidOf newName huid huuid hapart hnos
    exact ⟨ret, c', _, hret, hrenames⟩

end Rename

/-- A table with a row that has no UUID. -/
def nullUuidTable : EigenInfo where
  rows := [⟨1, 1000, none, 0, "uru4000", 0, "a", 1, [80]⟩]
  seq := 1
  ids_nodup := by decide
  ids_le_seq := by decide

/-- The rename crashes on the row without a UUID. -/
theorem not_bioCommFeatureRenameByDb_renames : ¬ ∀ (uuidOf : ℤ → String) (c : Store)
    (dev : BioDev) (uid idx : ℤ) (newName : String), 0 ≤ uid →
      ∃ ret c' updates, bioCommFeatureRenameByDb uuidOf c dev uid idx newName = some (ret, c') ∧
        RenamesOnly uuidOf c dev uid idx newName updates ret c' := by
  intro h
  obtain ⟨ret, c', -, hret, -⟩ := h (fun _ => "u") ⟨nullUuidTable, []⟩ idleReader 1000 0 "b"
    (by decide)
  have hcrash : bioCommFeatureRenameByDb (fun _ => "u") ⟨nullUuidTable, []⟩ idleReader 1000 0 "b" =
      none := by decide
  cases hcrash.symm.trans hret

/-- The number of the sample is read as `5`, and written back so. -/
example : (bioCommFeatureRenameByDb (fun _ => "u") ⟨EigenInfo.empty.insert 1000 "u" 0 "uru4000" 0
    "a" 4294967301 [80], []⟩ idleReader 1000 0 "b").map (fun p => p.2.db.rows.map
      EigenRow.sampleNo) = some [5] := by decide

/-- The index `-1` renames the feature of that index, not the one of index `0`. -/
theorem bioCommFeatureRenameByDb_renames_minus_one :
    ∃ ret c' updates, bioCommFeatureRenameByDb (fun _ => "u")
        ⟨(EigenInfo.empty.insert 1000 "u" 0 "uru4000" (-1) "a" 1 [80]).insert 1000 "u" 0 "uru4000"
          0 "a" 1 [81], []⟩ idleReader 1000 (-1) "b" = some (ret, c') ∧
      RenamesOnly (fun _ => "u")
        ⟨(EigenInfo.empty.insert 1000 "u" 0 "uru4000" (-1) "a" 1 [80]).insert 1000 "u" 0 "uru4000"
          0 "a" 1 [81], []⟩ idleReader 1000 (-1) "b" updates ret c' := by
  refine (bioCommFeatureRenameByDb_renames_iff (fun _ => "u") _ idleReader 1000 (-1) "b"
    (by decide)).mpr ⟨by decide, fun _ i hi hused hbelow => ?_, fun r hr => ?_⟩
  · -- the other index is read as `0`
    have hneg := hbelow i hi (le_refl _) hused
    obtain ⟨r, hr, -, -, -, -, rfl⟩ := hused
    exfalso
    clear hbelow
    revert r
    decide
  · have hints : ∀ u ∈ updatesOf (renamedRows (fun _ => "u") ((EigenInfo.empty.insert 1000 "u" 0
        "uru4000" (-1) "a" 1 [80]).insert 1000 "u" 0 "uru4000" 0 "a" 1 [81]) idleReader 1000 (-1))
        [], IsCInt u.1.sampleNo := by decide
    exact hints _ hr

end BiometricAuth
