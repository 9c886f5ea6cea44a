import BiometricAuth.Driver.Frame
import BiometricAuth.Storage.UserFeatures

/-!
# Whose rows an operation changes

The rows of a user (`EigenInfo.rowsOf`) are changed only by the enroll of a print of
his, by a clean and by a rename that are about him or about everybody. `KeepsOthers U`
says that of a table, for the users outside a set `U`; `Writes U` adds what has to hold
while the driver works: an enroll that is under way is for a user in `U`.

Both hold wherever an operation ends, also where it crashes or waits for ever. Main
results: `bioOps_keeps` for the operations between an open and a close, and
`bioOpsFeatureRename_keeps`.
-/

namespace BiometricAuth

open Process World

/-! ### The rows of a user -/

/-- The rows of user `u`. -/
def EigenInfo.rowsOf (db : EigenInfo) (u : ℤ) : List EigenRow :=
  db.rows.filter fun r => r.uid = u

/-- The rows of the users outside `U` are those of `db₀`. -/
def KeepsOthers (U : Set ℤ) (db₀ db : EigenInfo) : Prop :=
  ∀ u, u ∉ U → db.rowsOf u = db₀.rowsOf u

namespace KeepsOthers

variable {U : Set ℤ} {db₀ db : EigenInfo}

theorem refl (U : Set ℤ) (db : EigenInfo) : KeepsOthers U db db := fun _ _ => rfl

theorem insert (h : KeepsOthers U db₀ db) {uid : ℤ} (huid : uid ∈ U) (uuid : String) (bioType : ℤ)
    (driver : String) (eigenIndex : ℤ) (eigenIndexName : String) (sampleNo : ℤ)
    (eigenData : Bytes) : KeepsOthers U db₀
      (db.insert uid uuid bioType driver eigenIndex eigenIndexName sampleNo eigenData) := by
  intro u hu
  have hne : uid ≠ u := fun heq => hu (heq ▸ huid)
  rw [← h u hu]
  simp [EigenInfo.rowsOf, EigenInfo.insert, List.filter_append, hne]

theorem delete (h : KeepsOthers U db₀ db) {p : EigenRow → Bool}
    (hp : ∀ r, p r = true → r.uid ∈ U) : KeepsOthers U db₀ (db.delete p) := by
  intro u hu
  rw [← h u hu]
  simp only [EigenInfo.rowsOf, EigenInfo.delete, List.filter_filter]
  refine List.filter_congr fun r _ => ?_
  by_cases hr : r.uid = u
  · have hnot : p r = false := by
      by_contra hpr
      exact hu (hr ▸ hp r (by simpa using hpr))
    simp [hr, hnot]
  · simp [hr]

/-- An update that gives a row to the user it belongs to. -/
theorem update (h : KeepsOthers U db₀ db) {dbid : ℕ} {uid : ℤ} (huid : uid ∈ U)
    (hrow : ∀ r ∈ db.rows, r.id = dbid → r.uid = uid) (bioType : ℤ) (driver : String)
    (eigenIndex : ℤ) (eigenIndexName : String) (sampleNo : ℤ) : KeepsOthers U db₀
      (db.update dbid uid bioType driver eigenIndex eigenIndexName sampleNo) := by
  intro u hu
  have hne : uid ≠ u := fun heq => hu (heq ▸ huid)
  rw [← h u hu]
  have hmap : ∀ rows : List EigenRow, (∀ r ∈ rows, r.id = dbid → r.uid = uid) →
      (rows.map fun r => if r.id = dbid then
        { r with uid, bioType, driver, eigenIndex, eigenIndexName, sampleNo } else r).filter
          (fun r => r.uid = u) = rows.filter fun r => r.uid = u := by
    intro rows hrows
    induction rows with
    | nil => rfl
    | cons r rows ih =>
      have hr := hrows r (by simp)
      have ih := ih fun r hr => hrows r (by simp [hr])
      by_cases hid : r.id = dbid
      · simp [hid, hr hid, hne, ih]
      · simp [hid, List.filter_cons, ih]
  exact hmap db.rows hrow

end KeepsOthers

/-- The users an operation on `uid` is about: `-1` is everybody. -/
def usersOf (uid : ℤ) : Set ℤ := {u | uid = -1 ∨ u = uid}

theorem self_mem_usersOf (uid : ℤ) : uid ∈ usersOf uid := Or.inr rfl

namespace KeepsOthers

variable {db₀ : EigenInfo} {c c' : Store} {uid : ℤ}

/-- A clean. -/
theorem clean {q : FeatureQuery} (h : KeepsOthers (usersOf q.uid) db₀ c.db) :
    KeepsOthers (usersOf q.uid) db₀ (bioStoCleanFeatureInfo c q).2.db := by
  rcases bioStoCleanFeatureInfo_cases c q with ⟨-, hc⟩ | ⟨-, hc⟩
  · rw [hc]
    exact h
  · rw [hc]
    exact h.delete fun r hr => (FeatureQuery.selects_iff.mp hr).2.1

/-- The update of one sample of a rename, when the row is one of the user's. -/
theorem renameSample {dev : BioDev} {idx n m : ℤ} {newName : String} {s : FeatureSample}
    (h : KeepsOthers (usersOf uid) db₀ c.db)
    (hrow : ∀ r ∈ c.db.rows, r.id = s.dbid → r.uid = uid) :
    KeepsOthers (usersOf uid) db₀
      (BiometricAuth.renameSample dev uid idx newName (c, n, m) s).1.db := by
  rcases bioStoUpdateFeatureInfoByDbid_cases c s.dbid uid dev.biotype.code dev.deviceName idx
    newName s.no with hc | ⟨-, hc⟩
  · rw [BiometricAuth.renameSample, hc]
    exact h
  · rw [BiometricAuth.renameSample, hc]
    exact h.update (self_mem_usersOf uid) hrow _ _ _ _ _

/-- An update leaves the rows of the wanted user his. -/
theorem uid_of_renameSample {dev : BioDev} {idx n m : ℤ} {newName : String} {s : FeatureSample}
    {dbid : ℕ} (hrow : ∀ r ∈ c.db.rows, r.id = dbid → r.uid = uid) :
    ∀ r ∈ (BiometricAuth.renameSample dev uid idx newName (c, n, m) s).1.db.rows,
      r.id = dbid → r.uid = uid := by
  rcases bioStoUpdateFeatureInfoByDbid_cases c s.dbid uid dev.biotype.code dev.deviceName idx
    newName s.no with hc | ⟨-, hc⟩
  · rw [BiometricAuth.renameSample, hc]
    exact hrow
  · rw [BiometricAuth.renameSample, hc]
    intro r hr hid
    obtain ⟨r', hr', rfl⟩ := List.mem_map.mp hr
    by_cases hs : r'.id = s.dbid
    · rw [if_pos hs]
    · rw [if_neg hs] at hid ⊢
      exact hrow r' hr' hid

/-- The updates of a whole rename. -/
theorem renameSamples {dev : BioDev} {idx : ℤ} {newName : String} {todo : List FeatureSample}
    (st : Store × ℤ × ℤ) (h : KeepsOthers (usersOf uid) db₀ st.1.db)
    (hrows : ∀ s ∈ todo, ∀ r ∈ st.1.db.rows, r.id = s.dbid → r.uid = uid) :
    KeepsOthers (usersOf uid) db₀
      (todo.foldl (BiometricAuth.renameSample dev uid idx newName) st).1.db := by
  induction todo generalizing st with
  | nil => exact h
  | cons s todo ih =>
    obtain ⟨c, n, m⟩ := st
    refine ih _ (h.renameSample (hrows s (by simp))) fun s' hs' => ?_
    exact uid_of_renameSample (hrows s' (by simp [hs']))

/-- A rename. -/
theorem rename {uuidOf : ℤ → String} {dev : BioDev} {idx ret : ℤ} {newName : String}
    (h : KeepsOthers (usersOf uid) db₀ c.db)
    (hc' : bioCommFeatureRenameByDb uuidOf c dev uid idx newName = some (ret, c')) :
    KeepsOthers (usersOf uid) db₀ c'.db := by
  by_cases huid : uid = -1
  · exact fun u hu => absurd (Or.inl huid) hu
  · simp only [bioCommFeatureRenameByDb, Option.bind_eq_bind, Option.bind_eq_some_iff,
      Option.some.injEq, Prod.mk.injEq, renameInfos_eq] at hc'
    obtain ⟨infos, hinfos, -, rfl⟩ := hc'
    refine renameSamples (c, 0, 0) h fun s hs r hr hid => ?_
    -- the sample was read from a row of the user's, and the `ID` tells which
    obtain ⟨info, hinfo, hs⟩ := List.mem_flatMap.mp hs
    obtain ⟨r', hr', hselects, -, rfl⟩ := exists_row_of_mem_samples huid
      dev.biotype.code_nonneg hinfos (List.mem_filter.mp hinfo).1 hs
    rw [EigenInfo.eq_of_id_eq hr hr' hid]
    exact (FeatureQuery.selects_iff.mp hselects).2.1.resolve_left huid

end KeepsOthers

section Writes

variable {π : Type} {fp : Libfprint π} {U : Set ℤ} {db₀ : EigenInfo}

/-- The rows of the users outside `U` are those of `db₀`, and it will stay so. -/
structure Writes (U : Set ℤ) (db₀ : EigenInfo) (w : World π) : Prop where
  keeps : KeepsOthers U db₀ w.store.db
  enrollData : w.pending = some .deviceEnroll → w.enrollData.uid ∈ U

/-! ### Events -/

/-- Only the enrolled print touches the store. -/
theorem deliver_store {w w' : World π} {e : Event π} (h : w.deliver fp e = some w')
    (he : ∀ data, e ≠ .enrollCompleted (.print data)) :
    w'.store = w.store ∧ w'.enrollData = w.enrollData := by
  cases deliver_inv h with
  | stopByUser => exact ⟨communityOpsStopByUser_store w, communityOpsStopByUser_enrollData w⟩
  | deviceOpened ok => cases ok <;> exact ⟨rfl, rfl⟩
  | captureCompleted image => cases image <;> exact ⟨rfl, rfl⟩
  | enrollPrint data => exact absurd rfl (he data)
  | verifyReport report => cases report <;> exact ⟨rfl, rfl⟩
  | identifyReport _ hreport =>
    obtain ⟨uid, dev, rfl, -⟩ := exists_of_onMatchCbIdentify hreport
    exact ⟨rfl, rfl⟩
  | searchReport _ hreport =>
    obtain ⟨data, dev, ctrlFlag, rfl, -⟩ := exists_of_onMatchCbSearch hreport
    exact ⟨rfl, rfl⟩
  | ignored | deviceClosed | enrollProgress | enrollError | serializeError | verifyCompleted
    | deviceIdentified => exact ⟨rfl, rfl⟩

/-- Every event. -/
theorem Writes.deliver {w w' : World π} (h : Writes U db₀ w) {e : Event π}
    (he : w.deliver fp e = some w') : Writes U db₀ w' := by
  by_cases hprint : ∃ data, e = .enrollCompleted (.print data)
  · -- a print is stored for the user who is enrolled
    obtain ⟨data, rfl⟩ := hprint
    simp only [World.deliver] at he
    split at he
    next hpending =>
      obtain ⟨⟨ret, store⟩, hwrite, rfl⟩ := Option.map_eq_some_iff.mp he
      refine ⟨?_, fun hp => absurd hp.symm (Option.some_ne_none _)⟩
      change KeepsOthers U db₀ store.db
      rcases storeTemplate_cases hwrite with ⟨-, -, text, -, hdb⟩ | ⟨-, -, hdb⟩
      · -- the row is inserted, and it is his
        rw [hdb]
        exact h.keeps.insert (h.enrollData hpending) _ _ _ _ _ _ _
      · -- the `INSERT` failed
        rw [hdb]
        exact h.keeps
    next =>
      -- nobody waits for the print
      obtain rfl := Option.some.inj he
      exact h
  · -- no other event touches the table
    obtain ⟨hstore, henrollData⟩ := deliver_store he fun data heq => hprint ⟨data, heq⟩
    refine ⟨hstore ▸ h.keeps, fun hpending => ?_⟩
    rw [henrollData]
    -- the enroll stays pending, or has ended
    rcases (deliver_frame he).pending with hp | hp
    · exact h.enrollData (hp ▸ hpending)
    · rw [hp] at hpending
      cases hpending

/-! ### Polling, open and close -/

/-- The polling loops. -/
theorem opPoller_leads : (opPoller fp).poll.Leads (Writes U db₀) (Writes U db₀) :=
  Poller.poll_leads (fun _ _ _ h he => h.deliver he) (fun _ h => ⟨h.1, h.2⟩) fun _ h => ⟨h.1, h.2⟩

theorem openPoller_leads : (openPoller fp).poll.Leads (Writes U db₀) (Writes U db₀) :=
  Poller.poll_leads (fun _ _ _ h he => h.deliver he) (fun _ h => ⟨h.1, h.2⟩) fun _ h => ⟨h.1, h.2⟩

theorem awaitCompletion_leads {poller : Poller (World π) (Event π)} {result mid : ℤ}
    (h : poller.poll.Leads (Writes U db₀) (Writes U db₀)) :
    (awaitCompletion poller result mid).Leads (Writes U db₀) (Writes U db₀) := by
  refine h.bind fun exit => ?_
  refine .ite (fun _ => ?_) fun _ => .pure fun _ h => h
  exact .modify_bind (R := Writes U db₀) (fun _ h => ⟨h.1, h.2⟩) (.pure fun _ h => h)

/-- After the start of open it no longer matters what libfprint was about before. -/
theorem communityOpsOpen_leads : (communityOpsOpen fp).Leads
    (fun w => KeepsOthers U db₀ w.store.db ∧ w.dev.enable = true) (Writes U db₀) := by
  refine .modify_bind (R := fun w => KeepsOthers U db₀ w.store.db ∧ w.dev.enable = true)
    (fun w h => h) (.get_bind fun w h => ?_)
  rw [if_neg (by simp [h.2])]
  refine .modify_bind (R := Writes U db₀) ?_ ?_
  · rintro _ rfl
    exact ⟨h.1, nofun⟩
  · refine (awaitCompletion_leads openPoller_leads).bind fun exit => ?_
    refine .ite (fun _ => ?_) fun _ => .pure fun _ h => h
    exact .modify_bind (R := Writes U db₀) (fun _ h => ⟨h.1, h.2⟩) (.pure fun _ h => h)

theorem communityOpsClose_leads :
    (communityOpsClose fp).Leads (Writes U db₀) (Writes U db₀) := by
  refine .modify_bind (R := Writes U db₀) (fun w h => ⟨h.1, h.2⟩) (.get_bind fun w h => ?_)
  have hclose : Proc.Leads (Writes U db₀) (do
      Proc.modify World.startClose
      if (← awaitCompletion (openPoller fp) opsCloseFail notifyCloseFail) = .done then
        Proc.modify fun w => w.setCtrlFlag .idle : Driver π Unit) (Writes U db₀) := by
    refine .modify_bind (R := Writes U db₀) (fun w h => ⟨h.keeps, nofun⟩) ?_
    refine (awaitCompletion_leads openPoller_leads).bind fun exit => ?_
    exact .ite (fun _ => .modify fun _ h => ⟨h.1, h.2⟩) fun _ => .pure fun _ h => h
  refine .ite (fun _ => .modify_bind ?_ hclose) fun _ => ?_
  · rintro _ rfl
    exact ⟨h.1, h.2⟩
  · exact hclose.mono (fun _ heq => heq ▸ h) fun _ h => h

/-! ### The operations -/

/-- The operation is one that `bio_ops_*` put between an open and a close. -/
theorem bioOps_keeps {α : Type} {failed : α} {op : Driver π α}
    (hop : op.Leads (Writes U db₀) (Writes U db₀)) :
    (bioOps fp failed op).Leads (fun w => KeepsOthers U db₀ w.store.db)
      (fun w => KeepsOthers U db₀ w.store.db) := by
  refine .get_bind fun w h => .ite (fun _ => ?_) fun henable => ?_
  · refine .modify_bind (R := fun w => KeepsOthers U db₀ w.store.db) ?_ (.pure fun _ h => h)
    rintro _ rfl
    exact h
  · have hrest : Proc.Leads (fun w' => w' = w) (do
        let opened ← communityOpsOpen fp
        let ret ← if opened = 0 then op else pure failed
        communityOpsClose fp
        return ret) (Writes U db₀) := by
      refine .bind (communityOpsOpen_leads.mono ?_ fun _ h => h) fun opened => ?_
      · rintro _ rfl
        exact ⟨h, by simpa using henable⟩
      · refine .ite (fun _ => hop.bind fun ret => ?_) fun _ => ?_
        · exact communityOpsClose_leads.bind fun _ => .pure fun _ h => h
        · exact communityOpsClose_leads.bind fun _ => .pure fun _ h => h
    exact hrest.mono (fun _ h => h) fun _ h => h.keeps

/-- A step that changes neither the table nor what libfprint is about. -/
theorem leads_modify {α : Type} {f : World π → World π} {p : Driver π α}
    (hf : ∀ w, (f w).store = w.store ∧
      ((f w).pending = w.pending ∧ (f w).enrollData = w.enrollData ∨
        (f w).pending ≠ some .deviceEnroll))
    (hp : p.Leads (Writes U db₀) (Writes U db₀)) :
    (Proc.modify f >>= fun _ => p).Leads (Writes U db₀) (Writes U db₀) := by
  refine .modify_bind (fun w h => ?_) hp
  obtain ⟨hstore, ⟨hpending, henrollData⟩ | hpending⟩ := hf w
  · exact ⟨hstore ▸ h.keeps, fun hp => henrollData ▸ h.enrollData (hpending ▸ hp)⟩
  · exact ⟨hstore ▸ h.keeps, fun hp => absurd hp hpending⟩

theorem leads_pure {α : Type} (a : α) :
    (pure a : Driver π α).Leads (Writes U db₀) (Writes U db₀) :=
  .pure fun _ h => h

theorem leads_get {α : Type} {f : World π → Driver π α}
    (hf : ∀ w, Writes U db₀ w → (f w).Leads (Writes U db₀) (Writes U db₀)) :
    (Proc.get >>= f).Leads (Writes U db₀) (Writes U db₀) := by
  refine .get_bind fun w h => (hf w h).mono ?_ fun _ h => h
  rintro _ rfl
  exact h

theorem leads_ofOption {α β : Type} {o : Option α} {f : α → Driver π β}
    (hf : ∀ a, (f a).Leads (Writes U db₀) (Writes U db₀)) :
    (Proc.ofOption o >>= f).Leads (Writes U db₀) (Writes U db₀) :=
  .ofOption_bind (fun _ h => h) fun a _ => hf a

/-- A disabled device does nothing. -/
theorem leads_enable {α : Type} {w : World π} {a : α} {f : World π → World π} {p : Driver π α}
    (hf : ∀ w, (f w).store = w.store ∧ (f w).pending = w.pending ∧ (f w).enrollData = w.enrollData)
    (hp : p.Leads (Writes U db₀) (Writes U db₀)) :
    (if w.dev.enable = false then (do Proc.modify f; return a) else p : Driver π α).Leads
      (Writes U db₀) (Writes U db₀) :=
  .ite (fun _ => leads_modify (fun w => ⟨(hf w).1, Or.inl (hf w).2⟩) (leads_pure a)) fun _ => hp

/-- An operation that waits for the end and tells whether it came. -/
theorem leads_await {α : Type} {result mid : ℤ} {f : Exit → Driver π α}
    (hf : ∀ exit, (f exit).Leads (Writes U db₀) (Writes U db₀)) :
    (awaitCompletion (opPoller fp) result mid >>= f).Leads (Writes U db₀) (Writes U db₀) :=
  .bind (awaitCompletion_leads opPoller_leads) hf

theorem communityOpsEnroll_leads {uid idx : ℤ} {bioIdxName : String} (huid : uid ∈ U) :
    (communityOpsEnroll fp uid idx bioIdxName).Leads (Writes U db₀) (Writes U db₀) := by
  refine leads_get fun w _ => leads_ofOption fun idx => leads_enable (fun _ => ⟨rfl, rfl, rfl⟩) ?_
  refine .modify_bind (R := Writes U db₀) (fun w h => ⟨h.keeps, fun _ => huid⟩) ?_
  exact leads_await fun exit => .ite (fun _ => leads_pure 0) fun _ => leads_pure (-1)

theorem communityOpsVerify_leads {uid idx : ℤ} :
    (communityOpsVerify fp uid idx).Leads (Writes U db₀) (Writes U db₀) := by
  refine leads_get fun w _ => leads_enable (fun _ => ⟨rfl, rfl, rfl⟩) ?_
  refine leads_modify (fun _ => ⟨rfl, Or.inl ⟨rfl, rfl⟩⟩) (leads_ofOption fun data => ?_)
  cases fp.deserialize data with
  | none => exact leads_pure (-1)
  | some verifyPrint =>
    refine leads_modify (fun _ => ⟨rfl, Or.inr nofun⟩) (leads_await fun exit => ?_)
    refine .ite (fun _ => ?_) fun _ => leads_pure (-1)
    exact leads_modify (fun _ => ⟨rfl, Or.inl ⟨rfl, rfl⟩⟩) (leads_pure 0)

theorem communityOpsIdentify_leads {uid idxStart idxEnd : ℤ} :
    (communityOpsIdentify fp uid idxStart idxEnd).Leads (Writes U db₀) (Writes U db₀) := by
  refine leads_modify (fun _ => ⟨rfl, Or.inl ⟨rfl, rfl⟩⟩) (leads_get fun w _ => ?_)
  refine leads_enable (fun _ => ⟨rfl, rfl, rfl⟩) ?_
  refine leads_modify (fun _ => ⟨rfl, Or.inl ⟨rfl, rfl⟩⟩) (leads_ofOption fun prints => ?_)
  refine leads_modify (fun _ => ⟨rfl, Or.inr nofun⟩) (leads_await fun exit => ?_)
  refine .ite (fun _ => ?_) fun _ => leads_pure (-1)
  exact leads_modify (fun _ => ⟨rfl, Or.inl ⟨rfl, rfl⟩⟩) (leads_get fun w _ => leads_pure _)

theorem searchRound_leads {uid idxEnd : ℤ} :
    (searchRound fp uid idxEnd).Leads (Writes U db₀) (Writes U db₀) := by
  refine leads_modify (fun _ => ⟨rfl, Or.inl ⟨rfl, rfl⟩⟩) (leads_get fun w _ => ?_)
  refine leads_ofOption fun prints => leads_modify (fun _ => ⟨rfl, Or.inr nofun⟩) ?_
  exact awaitCompletion_leads opPoller_leads

/-- By induction on the rounds. -/
theorem searchRounds_leads {uid idxEnd : ℤ} (rounds : ℕ) :
    (searchRounds fp uid idxEnd rounds).Leads (Writes U db₀) (Writes U db₀) := by
  induction rounds with
  | zero => exact fun w es h => h
  | succ rounds ih =>
    refine leads_get fun w _ => .ite (fun _ => leads_pure _) fun _ => ?_
    refine searchRound_leads.bind fun exit => .ite (fun _ => ?_) fun _ => leads_pure exit
    refine leads_get fun w _ => leads_ofOption fun index => ?_
    exact leads_modify (fun _ => ⟨rfl, Or.inl ⟨rfl, rfl⟩⟩) ih

theorem communityOpsSearch_leads {uid idxStart idxEnd : ℤ} :
    (communityOpsSearch fp uid idxStart idxEnd).Leads (Writes U db₀) (Writes U db₀) := by
  have hloop : (searchLoop fp uid idxEnd).Leads (Writes U db₀) (Writes U db₀) :=
    fun w es h => searchRounds_leads (es.length + 1) w es h
  refine leads_modify (fun _ => ⟨rfl, Or.inl ⟨rfl, rfl⟩⟩) (leads_get fun w _ => ?_)
  refine leads_enable (fun _ => ⟨rfl, rfl, rfl⟩) ?_
  refine leads_modify (fun _ => ⟨rfl, Or.inl ⟨rfl, rfl⟩⟩) (hloop.bind fun exit => ?_)
  refine .ite (fun _ => leads_get fun w _ => ?_) fun _ => leads_pure []
  refine .ite (fun _ => ?_) fun _ => ?_ <;>
  · refine leads_modify (fun _ => ⟨rfl, Or.inl ⟨rfl, rfl⟩⟩) ?_
    exact leads_modify (fun _ => ⟨rfl, Or.inl ⟨rfl, rfl⟩⟩) (leads_pure _)

theorem communityOpsCapture_leads :
    (communityOpsCapture fp).Leads (Writes U db₀) (Writes U db₀) := by
  have hfinger : (fingerCapture fp).Leads (Writes U db₀) (Writes U db₀) := by
    refine leads_modify (fun _ => ⟨rfl, Or.inr nofun⟩) (leads_await fun exit => ?_)
    exact .ite (fun _ => leads_get fun w _ => leads_pure _) fun _ => leads_pure none
  have hcaptured : ∀ caps : Option Bytes, (do
      Proc.modify setCaptured
      return caps : Driver π (Option Bytes)).Leads (Writes U db₀) (Writes U db₀) := fun caps =>
    leads_modify (fun _ => ⟨rfl, Or.inl ⟨rfl, rfl⟩⟩) (leads_pure caps)
  refine leads_modify (fun _ => ⟨rfl, Or.inl ⟨rfl, rfl⟩⟩) (leads_get fun w _ => ?_)
  refine leads_enable (fun _ => ⟨rfl, rfl, rfl⟩) ?_
  refine leads_modify (fun _ => ⟨rfl, Or.inl ⟨rfl, rfl⟩⟩) (hfinger.bind fun featureData => ?_)
  cases featureData with
  | none => exact leads_pure none
  | some featureData =>
    cases w.dev.eigtype with
    | data => exact hcaptured _
    | eigenvalue | eigenvector => exact leads_ofOption fun _ => hcaptured _

theorem communityOpsGetFeatureList_leads {uid idxStart idxEnd : ℤ} :
    (communityOpsGetFeatureList uid idxStart idxEnd : Driver π (List FeatureInfo)).Leads
      (Writes U db₀) (Writes U db₀) := by
  refine leads_get fun w _ => leads_enable (fun _ => ⟨rfl, rfl, rfl⟩) ?_
  refine leads_modify (fun _ => ⟨rfl, Or.inl ⟨rfl, rfl⟩⟩) (leads_ofOption fun found => ?_)
  exact leads_modify (fun _ => ⟨rfl, Or.inl ⟨rfl, rfl⟩⟩) (leads_pure found)

theorem communityOpsClean_leads {uid idxStart idxEnd : ℤ} :
    (communityOpsClean uid idxStart idxEnd : Driver π ℤ).Leads (Writes (usersOf uid) db₀)
      (Writes (usersOf uid) db₀) := by
  refine leads_get fun w h => leads_enable (fun _ => ⟨rfl, rfl, rfl⟩) ?_
  have hclean := KeepsOthers.clean (q := w.dev.query uid idxStart idxEnd) h.keeps
  refine .modify_bind (R := Writes (usersOf uid) db₀) (fun w' h' => ⟨hclean, h'.enrollData⟩) ?_
  refine .ite (fun _ => ?_) fun _ => ?_ <;>
  exact leads_modify (fun _ => ⟨rfl, Or.inl ⟨rfl, rfl⟩⟩) (leads_pure _)

/-- A rename does not open the device. -/
theorem bioOpsFeatureRename_keeps {uid idx : ℤ} {newName : String} :
    (bioOpsFeatureRename uid idx newName : Driver π ℤ).Leads
      (fun w => KeepsOthers (usersOf uid) db₀ w.store.db)
      (fun w => KeepsOthers (usersOf uid) db₀ w.store.db) := by
  refine .modify_bind (R := fun w => KeepsOthers (usersOf uid) db₀ w.store.db) (fun w h => h) ?_
  refine .get_bind fun w h => .ofOption_bind ?_ fun renamed hrename => ?_
  · rintro _ rfl
    exact h
  · have hkeeps := h.rename hrename
    refine .modify_bind (R := fun w => KeepsOthers (usersOf uid) db₀ w.store.db) ?_ ?_
    · exact fun _ _ => hkeeps
    · refine .ite (fun _ => ?_) fun _ => ?_ <;>
      exact .modify_bind (R := fun w : World π => KeepsOthers (usersOf uid) db₀ w.store.db)
        (fun w h => h) (.pure fun _ h => h)

end Writes

end BiometricAuth
