import BiometricAuth.Daemon.Handlers
import BiometricAuth.Driver.OpsTable

/-!
# What a Rename replies

`gdbus_feature_rename_pt` runs `bio_ops_feature_rename` and replies `RetOpsSuccess` if it finds
`OPS_RENAME_SUCCESS` on the device. The value that the function returns is only printed.

The framework's own rename sets that result when no `UPDATE` has failed, which is also so when
there was nothing to update: the feature need not exist. If an `UPDATE` fails the reply is an
error, also when the row has the new name already.

A function of the driver is documented to return `0` for a success. The framework does not look
at what it returns; whatever `ops_result` open, rename and close leave decides.

What the driver's functions are documented to do is a contract (`SuppliesRename`). Main result:
`featureRename_reports_iff` — when the reply says whether the feature has been renamed.
-/

namespace BiometricAuth

open Process

section RenameReply

variable {σ : Type} [DeviceState σ]

/-! ### The handler -/

/-- `gdbus_feature_rename_pt` on a device it has obtained. -/
def gdbusFeatureRenamePt (ops : DriverOps σ) (uid idx : ℤ) (newName : String) :
    Framework σ ℤ := do
  let _ ← ops.bioOpsFeatureRename uid idx newName
  let dev ← getDev
  return if dev.opsResult = opsRenameSuccess then -retOpsSuccess else -retOpsError

/-- For the `uru4000` reader it is the handler of `BiometricAuth.Daemon.Handlers`. -/
theorem gdbusFeatureRenamePt_agrees {π : Type} (fp : Libfprint π) (uid idx : ℤ)
    (newName : String) (w : World π) (es : List (List (Event π))) :
    AgreesAt (do return [.code (← gdbusFeatureRenamePt (uru4000Ops fp) uid idx newName)])
      (Request.serve fp (.rename uid idx newName) .admitted) w es := by
  have hserve : Request.serve fp (.rename uid idx newName) .admitted =
      bioOpsFeatureRename uid idx newName >>= fun ret => Proc.get >>= fun w =>
        pure ((Request.rename uid idx newName).replies (.ret ret) w.dev.opsResult) :=
    Proc.map_bind _ _ _
  rw [hserve]
  unfold gdbusFeatureRenamePt
  simp only [bind_assoc, pure_bind]
  refine .bind (bioOpsFeatureRename_agrees fp w es uid idx newName) fun ret w' es' _ => ?_
  exact .getDev_bind (.pure _ _ _)

/-! ### What is asked of the reply -/

/-- The feature exists. -/
def HasFeature (db : EigenInfo) (key : FeatureKey) : Prop := ∃ r ∈ db.rows, r.key = key

/-- All rows of the feature carry a name. -/
def CarriesName (db : EigenInfo) (key : FeatureKey) (name : String) : Prop :=
  ∀ r ∈ db.rows, r.key = key → r.eigenIndexName = name

/-- The feature of a user on the device. -/
def deviceFeature (s : σ) (uid idx : ℤ) : FeatureKey :=
  featureKey (DeviceState.uuidOf s) (DeviceState.dev s) uid idx

/-- The request is replied to, with `RetOpsSuccess` exactly if the feature existed and all of
its rows carry the new name afterwards. -/
def RenameReports (ops : DriverOps σ) (s : σ) (uid idx : ℤ) (newName : String) : Prop :=
  ∃ reply s' calls, gdbusFeatureRenamePt ops uid idx newName (s, []) = some (reply, (s', calls)) ∧
    (reply = -retOpsSuccess ↔
      HasFeature (DeviceState.store s).db (deviceFeature s uid idx) ∧
        CarriesName (DeviceState.store s').db (deviceFeature s uid idx) newName)

/-- The handler looks at the result that the rename leaves. -/
theorem renameReports_iff_of_run {ops : DriverOps σ} {s s' : σ} {uid idx ret : ℤ}
    {newName : String} {calls : List DriverOp}
    (hrun : ops.bioOpsFeatureRename uid idx newName (s, []) = some (ret, (s', calls))) :
    RenameReports ops s uid idx newName ↔
      ((DeviceState.dev s').opsResult = opsRenameSuccess ↔
        HasFeature (DeviceState.store s).db (deviceFeature s uid idx) ∧
          CarriesName (DeviceState.store s').db (deviceFeature s uid idx) newName) := by
  -- the handler replies by the result that is left
  have hreply : gdbusFeatureRenamePt ops uid idx newName (s, []) =
      some (if (DeviceState.dev s').opsResult = opsRenameSuccess then -retOpsSuccess
        else -retOpsError, (s', calls)) := by
    unfold gdbusFeatureRenamePt
    rw [Framework.bind_apply, hrun]
    rfl
  -- the two codes differ
  have hcode : (if (DeviceState.dev s').opsResult = opsRenameSuccess then -retOpsSuccess
      else -retOpsError) = -retOpsSuccess ↔ (DeviceState.dev s').opsResult = opsRenameSuccess := by
    split
    next h => exact iff_of_true rfl h
    next h => exact iff_of_false (by decide) h
  unfold RenameReports
  rw [hreply]
  constructor
  · rintro ⟨reply, s'', calls', h, hiff⟩
    obtain ⟨rfl, hs⟩ := Prod.mk.inj (Option.some.inj h)
    obtain ⟨rfl, -⟩ := Prod.mk.inj hs
    rwa [hcode] at hiff
  · exact fun hiff => ⟨_, s', calls, rfl, hcode.trans hiff⟩

/-! ### The framework's own rename -/

/-- The row has been updated. -/
def IsUpdated (updates : List (FeatureSample × Bool)) (r : EigenRow) : Prop :=
  ∃ u ∈ updates, u.1.dbid = r.id ∧ u.2 = true

/-- When the framework's own rename reports what it has done: the reader gets through; if all
updates succeed there is such a feature, and its rows have been listed or already carry the name;
if one fails, some row of the feature has been left with another name. -/
def DefaultRenameReports (uuidOf : ℤ → String) (c : Store) (dev : BioDev) (uid idx : ℤ)
    (newName : String) : Prop :=
  ∃ infos, bioStoGetFeatureInfo uuidOf c.db (dev.query uid idx idx) = some infos ∧
    ((∀ u ∈ renameUpdates c infos uid idx, u.2 = true) →
      HasFeature c.db (featureKey uuidOf dev uid idx) ∧
        ∀ r ∈ c.db.rows, r.key = featureKey uuidOf dev uid idx →
          IsUpdated (renameUpdates c infos uid idx) r ∨ r.eigenIndexName = newName) ∧
    ((∃ u ∈ renameUpdates c infos uid idx, u.2 = false) →
      HasFeature c.db (featureKey uuidOf dev uid idx) →
        ∃ r ∈ c.db.rows, r.key = featureKey uuidOf dev uid idx ∧
          ¬ IsUpdated (renameUpdates c infos uid idx) r ∧ r.eigenIndexName ≠ newName)

/-- After the updates the rows of the feature carry the name if they have been updated or
carried it before. -/
theorem carriesName_refileRows_iff {uuidOf : ℤ → String} {db db' : EigenInfo} {dev : BioDev}
    {uid idx : ℤ} {newName : String} {updates : List (FeatureSample × Bool)}
    (hrows : db'.rows = refileRows dev uid idx newName updates db.rows) :
    CarriesName db' (featureKey uuidOf dev uid idx) newName ↔
      ∀ r ∈ db.rows, r.key = featureKey uuidOf dev uid idx →
        IsUpdated updates r ∨ r.eigenIndexName = newName := by
  unfold CarriesName
  rw [hrows]
  unfold refileRows
  rw [List.forall_mem_map]
  refine forall₂_congr fun r _ => ?_
  by_cases hupdated : ∃ u ∈ updates, u.1.dbid = r.id ∧ u.2 = true
  · rw [if_pos hupdated]
    exact iff_of_true (fun _ => rfl) fun _ => .inl hupdated
  · rw [if_neg hupdated]
    exact imp_congr_right fun _ => (or_iff_right hupdated).symm

/-- The result of the framework's rename is that all updates have succeeded. -/
theorem renameResult_iff (updates : List (FeatureSample × Bool)) :
    (if ((updates.countP fun u => u.2 = false : ℕ) : ℤ) = 0 then opsRenameSuccess
      else opsRenameFail) = opsRenameSuccess ↔ ∀ u ∈ updates, u.2 = true := by
  have hcount : ((updates.countP fun u => u.2 = false : ℕ) : ℤ) = 0 ↔
      ∀ u ∈ updates, u.2 = true := by
    rw [Nat.cast_eq_zero, List.countP_eq_zero]
    simp
  by_cases hzero : ((updates.countP fun u => u.2 = false : ℕ) : ℤ) = 0
  · rw [if_pos hzero]
    exact iff_of_true rfl (hcount.mp hzero)
  · rw [if_neg hzero]
    exact iff_of_false (by decide) (hcount.not.mp hzero)

theorem renameReports_default_iff {ops : DriverOps σ} (hnone : ops.opsFeatureRename = none)
    (s : σ) (uid idx : ℤ) (newName : String) :
    RenameReports ops s uid idx newName ↔
      DefaultRenameReports (DeviceState.uuidOf s) (DeviceState.store s) (DeviceState.dev s) uid idx
        newName := by
  have hops : ops.bioOpsFeatureRename uid idx newName =
      bioOpsDefaultRename (σ := σ) uid idx newName := by
    rw [DriverOps.bioOpsFeatureRename, hnone]
  unfold DefaultRenameReports
  cases hread : bioStoGetFeatureInfo (DeviceState.uuidOf s) (DeviceState.store s).db
    ((DeviceState.dev s).query uid idx idx) with
  | none =>
    -- the reader crashes, and with it the request
    have hrename : bioCommFeatureRenameByDb (DeviceState.uuidOf s) (DeviceState.store s)
        (DeviceState.dev s) uid idx newName = none := by
      rw [bioCommFeatureRenameByDb, hread]
      rfl
    have hcrash : gdbusFeatureRenamePt ops uid idx newName (s, []) = none := by
      unfold gdbusFeatureRenamePt
      rw [Framework.bind_apply, hops, bioOpsDefaultRename_none hrename]
      rfl
    refine iff_of_false ?_ ?_
    · rintro ⟨reply, s', calls, h, -⟩
      cases hcrash.symm.trans h
    · rintro ⟨infos, h, -⟩
      cases h
  | some infos =>
    -- the reader gets through: the reply counts the updates, and the state shows their results
    obtain ⟨c', hrename, -, hrows⟩ := bioCommFeatureRenameByDb_eq newName hread
    obtain ⟨s', hdefault, hstore, hresult⟩ := bioOpsDefaultRename_spec hrename []
    rw [renameReports_iff_of_run ((congrFun hops (s, [])).trans hdefault), hstore, deviceFeature,
      carriesName_refileRows_iff hrows]
    set updates := renameUpdates (DeviceState.store s) infos uid idx with hupdates
    have hsuccess : (DeviceState.dev s').opsResult = opsRenameSuccess ↔
        ∀ u ∈ updates, u.2 = true := by
      rw [hresult]
      exact renameResult_iff updates
    -- an update that is not executed is one that fails
    have hfailed : (∃ u ∈ updates, u.2 = false) ↔ ¬ ∀ u ∈ updates, u.2 = true := by
      push Not
      simp
    simp only [Option.some.injEq, exists_eq_left', hsuccess]
    -- a row of the feature without the name and without an update is one that the rename leaves
    -- open
    have hleft : (∃ r ∈ (DeviceState.store s).db.rows,
        r.key = featureKey (DeviceState.uuidOf s) (DeviceState.dev s) uid idx ∧
          ¬ IsUpdated updates r ∧ r.eigenIndexName ≠ newName) ↔
        ¬ ∀ r ∈ (DeviceState.store s).db.rows,
          r.key = featureKey (DeviceState.uuidOf s) (DeviceState.dev s) uid idx →
            IsUpdated updates r ∨ r.eigenIndexName = newName := by
      push Not
      rfl
    rw [hleft]
    constructor
    · exact fun h => ⟨h.mp, fun hsome hhas hall => hfailed.mp hsome (h.mpr ⟨hhas, hall⟩)⟩
    · rintro ⟨hdone, hopen⟩
      refine ⟨hdone, fun h => ?_⟩
      -- were one update to fail, the name would be missing somewhere
      by_contra hsome
      exact hopen (hfailed.mpr hsome) h.1 h.2

/-- For a user the listed samples are the rows of the feature, no index being read as another one.
There has to be such a feature, and if an update fails, one has to fail on a row with another
name. -/
theorem defaultRenameReports_iff_of_uid (uuidOf : ℤ → String) (c : Store) (dev : BioDev)
    {uid : ℤ} {idx : ℤ} (newName : String) (huid : uid ≠ -1)
    (hapart : FiledApart uuidOf c.db dev uid idx) :
    DefaultRenameReports uuidOf c dev uid idx newName ↔
      (∀ r ∈ c.db.rows, (dev.query uid idx idx).selects r = true → r.uuid ≠ none) ∧
      HasFeature c.db (featureKey uuidOf dev uid idx) ∧
      ((∃ u ∈ updatesOf (renamedRows uuidOf c.db dev uid idx) c.outcomes, u.2 = false) →
        ∃ u ∈ updatesOf (renamedRows uuidOf c.db dev uid idx) c.outcomes,
          u.2 = false ∧ u.1.eigenIndexName ≠ newName) := by
  -- the listing is the list of the user's features, if all the rows that are selected have UUIDs
  have hread : ∀ infos, bioStoGetFeatureInfo uuidOf c.db (dev.query uid idx idx) = some infos ↔
      infos = userFeatures uuidOf c.db (dev.query uid idx idx) ∧
        ∀ r ∈ c.db.rows, (dev.query uid idx idx).selects r = true → r.uuid ≠ none :=
    fun infos => bioStoGetFeatureInfo_eq_some_iff uuidOf huid dev.biotype.code_nonneg
  set todo := renamedRows uuidOf c.db dev uid idx with htodo
  set updates := updatesOf todo c.outcomes with hupdates
  -- the updates are those of the rows of the feature
  have hsamples : renameUpdates c (userFeatures uuidOf c.db (dev.query uid idx idx)) uid idx =
      updates.map (Prod.map EigenRow.toSample id) := by
    rw [renameUpdates, renameTargets_userFeatures c.db huid, filedRows_eq_renamedRows huid hapart,
      updatesOf_map]
  have hrow : ∀ r, r ∈ updates.map Prod.fst ↔
      r ∈ c.db.rows ∧ r.key = featureKey uuidOf dev uid idx := by
    intro r
    rw [updatesOf_map_fst]
    exact mem_renamedRows huid
  -- a row is updated if the update with its `ID` is executed
  have hupdated : ∀ r ∈ c.db.rows, (IsUpdated (updates.map (Prod.map EigenRow.toSample id)) r ↔
      (r, true) ∈ updates) := by
    intro r hr
    exact exists_update_iff (fun u hu => ((hrow u.1).mp (List.mem_map_of_mem hu)).1) hr
  -- a row has one update
  have honce : ∀ u ∈ updates, u.2 = false → (u.1, true) ∉ updates := by
    intro u hu hfalse htrue
    have hnodup : (updates.map Prod.fst).Nodup := by
      rw [updatesOf_map_fst]
      exact renamedRows_nodup _ _ _ _ _
    have heq := List.inj_on_of_nodup_map hnodup hu htrue rfl
    rw [heq] at hfalse
    cases hfalse
  have hfails : (∃ u ∈ updates.map (Prod.map EigenRow.toSample id), u.2 = false) ↔
      ∃ u ∈ updates, u.2 = false := by
    constructor
    · rintro ⟨u, hu, hfalse⟩
      obtain ⟨v, hv, rfl⟩ := List.mem_map.mp hu
      exact ⟨v, hv, hfalse⟩
    · rintro ⟨v, hv, hfalse⟩
      exact ⟨_, List.mem_map_of_mem hv, hfalse⟩
  unfold DefaultRenameReports
  simp only [hread, and_assoc, exists_eq_left, hsamples, List.forall_mem_map, Prod.map_snd, id_eq,
    hfails]
  refine and_congr_right fun _ => ?_
  -- an update is one of a row of the feature
  have hfeature : (∃ u ∈ updates, u.2 = false) →
      HasFeature c.db (featureKey uuidOf dev uid idx) := by
    rintro ⟨u, hu, -⟩
    exact ⟨u.1, (hrow u.1).mp (List.mem_map_of_mem hu)⟩
  constructor
  · rintro ⟨hdone, hfailed⟩
    refine ⟨?_, fun hsome => ?_⟩
    · -- an update that fails is one of a row of the feature, so there is such a feature either way
      by_cases hall : ∀ u ∈ updates, u.2 = true
      · exact (hdone hall).1
      · push Not at hall
        obtain ⟨u, hu, hne⟩ := hall
        exact hfeature ⟨u, hu, Bool.eq_false_of_not_eq_true hne⟩
    · -- the row that has been left without the name is one whose update fails
      obtain ⟨r, hr, hkey, hnot, hname⟩ := hfailed hsome (hfeature hsome)
      obtain ⟨u, hu, rfl⟩ := List.mem_map.mp ((hrow r).mpr ⟨hr, hkey⟩)
      refine ⟨u, hu, Bool.eq_false_of_not_eq_true fun htrue => hnot ?_, hname⟩
      rw [hupdated u.1 hr, ← htrue]
      exact hu
  · rintro ⟨hhas, hfailed⟩
    refine ⟨fun hall => ⟨hhas, fun r hr hkey => .inl ?_⟩, fun hsome _ => ?_⟩
    · -- all updates are executed, hence the one of the row
      obtain ⟨u, hu, rfl⟩ := List.mem_map.mp ((hrow r).mpr ⟨hr, hkey⟩)
      rw [hupdated u.1 hr, ← hall u hu]
      exact hu
    · -- the row of the update that fails keeps its name, as it has no other update
      obtain ⟨u, hu, hfalse, hname⟩ := hfailed hsome
      obtain ⟨hr, hkey⟩ := (hrow u.1).mp (List.mem_map_of_mem hu)
      refine ⟨u.1, hr, hkey, ?_, hname⟩
      rw [hupdated u.1 hr]
      exact honce u hu hfalse

/-! ### A rename of the driver -/

/-- Open and close leave the features alone, and what device they are of. -/
structure Undisturbed (s s' : σ) : Prop where
  db : (DeviceState.store s').db = (DeviceState.store s).db
  feature : ∀ uid idx, deviceFeature s' uid idx = deviceFeature s uid idx

/-- What the functions of a driver with a rename are documented to do: open initialises the
device and close frees what open has got, and rename returns `0` for a success. -/
structure SuppliesRename (ops : DriverOps σ) (rename : ℤ → ℤ → String → DriverFun σ ℤ) :
    Prop where
  opens : ∃ opsOpen, ops.opsOpen = some opsOpen ∧
    ∀ s, ∃ ret s', opsOpen s = some (ret, s') ∧ Undisturbed s s'
  closes : ∃ opsClose, ops.opsClose = some opsClose ∧
    ∀ s, ∃ s', opsClose s = some ((), s') ∧ Undisturbed s s'
  renames : ∀ uid idx newName s, ∃ ret s', rename uid idx newName s = some (ret, s') ∧
    (ret = 0 ↔ HasFeature (DeviceState.store s).db (deviceFeature s uid idx) ∧
      CarriesName (DeviceState.store s').db (deviceFeature s uid idx) newName)

/-- The feature exists and carries the name already. -/
def AlreadyNamed (s : σ) (uid idx : ℤ) (newName : String) : Prop :=
  HasFeature (DeviceState.store s).db (deviceFeature s uid idx) ∧
    CarriesName (DeviceState.store s).db (deviceFeature s uid idx) newName

/-- When a rename of the driver is reported: where it is not reached, the feature does not carry
the name already (or open has left the result of a rename); where it is, the result that is left
after close is that of a rename exactly if it has returned `0`. -/
structure SuppliedRenameReports (ops : DriverOps σ) (rename : ℤ → ℤ → String → DriverFun σ ℤ)
    (s : σ) (uid idx : ℤ) (newName : String) : Prop where
  disabled : (DeviceState.dev s).enable = false → ¬ AlreadyNamed s uid idx newName
  unopened : (DeviceState.dev s).enable = true → ∀ opsOpen opsClose ret s₁ s₂,
    ops.opsOpen = some opsOpen → ops.opsClose = some opsClose → opsOpen s = some (ret, s₁) →
      ret ≠ 0 → opsClose s₁ = some ((), s₂) →
        ((DeviceState.dev s₂).opsResult = opsRenameSuccess ↔ AlreadyNamed s uid idx newName)
  opened : (DeviceState.dev s).enable = true → ∀ opsOpen opsClose s₁ ret s₂ s₃,
    ops.opsOpen = some opsOpen → ops.opsClose = some opsClose → opsOpen s = some (0, s₁) →
      rename uid idx newName s₁ = some (ret, s₂) → opsClose s₂ = some ((), s₃) →
        ((DeviceState.dev s₃).opsResult = opsRenameSuccess ↔ ret = 0)

section Supplied

variable {ops : DriverOps σ} {rename : ℤ → ℤ → String → DriverFun σ ℤ}
  {opsOpen : DriverFun σ ℤ} {opsClose : DriverFun σ Unit} {s s₁ s₂ s₃ : σ} {ret ret' : ℤ}

/-- The calls of the framework where the driver's rename is reached. -/
theorem bioOpsFeatureRename_of_opened (hrename : ops.opsFeatureRename = some rename)
    (hopen : ops.opsOpen = some opsOpen) (hclose : ops.opsClose = some opsClose)
    (henable : ¬ (DeviceState.dev s).enable = false) (uid idx : ℤ) (newName : String)
    (hret : opsOpen s = some (0, s₁)) (hret' : rename uid idx newName s₁ = some (ret', s₂))
    (hret₃ : opsClose s₂ = some ((), s₃)) :
    ops.bioOpsFeatureRename uid idx newName (s, []) =
      some (0, (s₃, [.opsOpen, .opsFeatureRename, .opsClose])) := by
  unfold DriverOps.bioOpsFeatureRename
  rw [hrename]
  simp only [getDev_bind, if_neg henable, hopen, hclose]
  rw [Framework.bind_apply, callDriver_eq hret, Option.bind_some, if_pos rfl]
  show (callDriver DriverOp.opsFeatureRename _ >>= _) _ = _
  rw [Framework.bind_apply, callDriver_eq hret', Option.bind_some]
  show (callDriver DriverOp.opsClose _ >>= _) _ = _
  rw [Framework.bind_apply, callDriver_eq hret₃, Option.bind_some]
  rfl

/-- And where open fails. -/
theorem bioOpsFeatureRename_of_unopened (hrename : ops.opsFeatureRename = some rename)
    (hopen : ops.opsOpen = some opsOpen) (hclose : ops.opsClose = some opsClose)
    (henable : ¬ (DeviceState.dev s).enable = false) (uid idx : ℤ) (newName : String)
    (hret : opsOpen s = some (ret, s₁)) (hne : ret ≠ 0) (hret₂ : opsClose s₁ = some ((), s₂)) :
    ops.bioOpsFeatureRename uid idx newName (s, []) =
      some (ret, (s₂, [.opsOpen, .opsClose])) := by
  unfold DriverOps.bioOpsFeatureRename
  rw [hrename]
  simp only [getDev_bind, if_neg henable, hopen, hclose]
  rw [Framework.bind_apply, callDriver_eq hret, Option.bind_some, if_neg hne]
  show (callDriver DriverOp.opsClose _ >>= _) _ = _
  rw [Framework.bind_apply, callDriver_eq hret₂, Option.bind_some]
  rfl

/-- Which field of the condition is the one that counts: the driver's functions have one outcome. -/
theorem suppliedRenameReports_iff_of_opened (hopen : ops.opsOpen = some opsOpen)
    (hclose : ops.opsClose = some opsClose) (henable : ¬ (DeviceState.dev s).enable = false)
    {uid idx : ℤ} {newName : String} (hret : opsOpen s = some (0, s₁))
    (hret' : rename uid idx newName s₁ = some (ret', s₂)) (hret₃ : opsClose s₂ = some ((), s₃)) :
    SuppliedRenameReports ops rename s uid idx newName ↔
      ((DeviceState.dev s₃).opsResult = opsRenameSuccess ↔ ret' = 0) := by
  have htrue := Bool.eq_true_of_not_eq_false henable
  constructor
  · exact fun h => h.opened htrue _ _ _ _ _ _ hopen hclose hret hret' hret₃
  intro h
  refine ⟨fun hfalse => absurd hfalse henable, ?_, ?_⟩
  · intro _ opsOpen' opsClose' ret₁ s₁' s₂' hopen' _ hret₁ hne
    obtain rfl := Option.some.inj (hopen.symm.trans hopen')
    exact absurd (Prod.mk.inj (Option.some.inj (hret₁.symm.trans hret))).1 hne
  · intro _ opsOpen' opsClose' s₁' ret₁ s₂' s₃' hopen' hclose' hret₁ hret₂ hret₃'
    obtain rfl := Option.some.inj (hopen.symm.trans hopen')
    obtain rfl := Option.some.inj (hclose.symm.trans hclose')
    obtain ⟨-, rfl⟩ := Prod.mk.inj (Option.some.inj (hret₁.symm.trans hret))
    obtain ⟨rfl, rfl⟩ := Prod.mk.inj (Option.some.inj (hret₂.symm.trans hret'))
    obtain ⟨-, rfl⟩ := Prod.mk.inj (Option.some.inj (hret₃'.symm.trans hret₃))
    exact h

theorem suppliedRenameReports_iff_of_unopened (hopen : ops.opsOpen = some opsOpen)
    (hclose : ops.opsClose = some opsClose) (henable : ¬ (DeviceState.dev s).enable = false)
    {uid idx : ℤ} {newName : String} (hret : opsOpen s = some (ret, s₁)) (hne : ret ≠ 0)
    (hret₂ : opsClose s₁ = some ((), s₂)) :
    SuppliedRenameReports ops rename s uid idx newName ↔
      ((DeviceState.dev s₂).opsResult = opsRenameSuccess ↔ AlreadyNamed s uid idx newName) := by
  have htrue := Bool.eq_true_of_not_eq_false henable
  constructor
  · exact fun h => h.unopened htrue _ _ _ _ _ hopen hclose hret hne hret₂
  intro h
  refine ⟨fun hfalse => absurd hfalse henable, ?_, ?_⟩
  · intro _ opsOpen' opsClose' ret₁ s₁' s₂' hopen' hclose' hret₁ _ hret₂'
    obtain rfl := Option.some.inj (hopen.symm.trans hopen')
    obtain rfl := Option.some.inj (hclose.symm.trans hclose')
    obtain ⟨-, rfl⟩ := Prod.mk.inj (Option.some.inj (hret₁.symm.trans hret))
    obtain ⟨-, rfl⟩ := Prod.mk.inj (Option.some.inj (hret₂'.symm.trans hret₂))
    exact h
  · intro _ opsOpen' opsClose' s₁' ret₁ s₂' s₃' hopen' _ hret₁
    obtain rfl := Option.some.inj (hopen.symm.trans hopen')
    exact absurd (Prod.mk.inj (Option.some.inj (hret.symm.trans hret₁))).1 hne

end Supplied

/-- The guard: a disabled device gets none of the calls, and the result of the guard. -/
theorem renameReports_supplied_iff_of_disabled {ops : DriverOps σ}
    {rename : ℤ → ℤ → String → DriverFun σ ℤ} (hrename : ops.opsFeatureRename = some rename)
    {s : σ} (henable : (DeviceState.dev s).enable = false) (uid idx : ℤ) (newName : String) :
    RenameReports ops s uid idx newName ↔ SuppliedRenameReports ops rename s uid idx newName := by
  have hrun : ops.bioOpsFeatureRename uid idx newName (s, []) =
      some (-1, (guardedState s, [])) := by
    unfold DriverOps.bioOpsFeatureRename
    rw [hrename]
    simp only [getDev_bind, if_pos henable]
    rfl
  rw [renameReports_iff_of_run hrun, guardedState, DeviceState.dev_setDev,
    DeviceState.store_setDev, setCommDisable_opsResult]
  have hcode : ¬ opsCommError = opsRenameSuccess := by decide
  constructor
  · intro h
    refine ⟨fun _ => (not_congr h).mp hcode, fun htrue => ?_, fun htrue => ?_⟩
    · exact absurd (henable.symm.trans htrue) Bool.false_ne_true
    · exact absurd (henable.symm.trans htrue) Bool.false_ne_true
  · exact fun h => iff_of_false hcode (h.disabled henable)

theorem renameReports_supplied_iff {ops : DriverOps σ} {rename : ℤ → ℤ → String → DriverFun σ ℤ}
    (hrename : ops.opsFeatureRename = some rename) (hsupplies : SuppliesRename ops rename) (s : σ)
    (uid idx : ℤ) (newName : String) :
    RenameReports ops s uid idx newName ↔
      SuppliedRenameReports ops rename s uid idx newName := by
  obtain ⟨opsOpen, hopen, hopens⟩ := hsupplies.opens
  obtain ⟨opsClose, hclose, hcloses⟩ := hsupplies.closes
  by_cases henable : (DeviceState.dev s).enable = false
  · exact renameReports_supplied_iff_of_disabled hrename henable uid idx newName
  obtain ⟨ret, s₁, hret, hopened⟩ := hopens s
  by_cases hzero : ret = 0
  · -- the driver's rename is called, and the feature is judged by what it has returned
    subst hzero
    obtain ⟨ret', s₂, hret', hsuccess⟩ := hsupplies.renames uid idx newName s₁
    obtain ⟨s₃, hret₃, hclosed⟩ := hcloses s₂
    have hrun := bioOpsFeatureRename_of_opened hrename hopen hclose henable uid idx newName hret
      hret' hret₃
    rw [renameReports_iff_of_run hrun, hclosed.db, ← hopened.db, ← hopened.feature, ← hsuccess,
      suppliedRenameReports_iff_of_opened hopen hclose henable hret hret' hret₃]
  · -- it is not reached, and the feature is as before
    obtain ⟨s₂, hret₂, hclosed⟩ := hcloses s₁
    have hrun := bioOpsFeatureRename_of_unopened hrename hopen hclose henable uid idx newName hret
      hzero hret₂
    rw [renameReports_iff_of_run hrun, hclosed.db, hopened.db,
      suppliedRenameReports_iff_of_unopened hopen hclose henable hret hzero hret₂]
    rfl

/-- **The reply of Rename.** It says whether the feature existed and carries the new name now,
exactly under these conditions: without a rename of the driver, the reader gets through, there is
such a feature, and updates fail only where that leaves another name; with one, the result that
is left goes by what the driver's rename has returned, or by the name the feature already had
where it has not been called. -/
theorem featureRename_reports_iff (ops : DriverOps σ)
    (hsupplies : ∀ rename, ops.opsFeatureRename = some rename → SuppliesRename ops rename) (s : σ)
    (uid idx : ℤ) (newName : String) :
    RenameReports ops s uid idx newName ↔
      (ops.opsFeatureRename = none → DefaultRenameReports (DeviceState.uuidOf s)
        (DeviceState.store s) (DeviceState.dev s) uid idx newName) ∧
      ∀ rename, ops.opsFeatureRename = some rename →
        SuppliedRenameReports ops rename s uid idx newName := by
  cases hrename : ops.opsFeatureRename with
  | none =>
    -- the driver has no function, and the framework's rename is done
    rw [renameReports_default_iff hrename]
    constructor
    · intro h
      exact ⟨fun _ => h, fun rename hsome => absurd hsome (Option.some_ne_none rename).symm⟩
    · exact fun h => h.1 rfl
  | some rename =>
    -- the driver's own function is called
    rw [renameReports_supplied_iff hrename (hsupplies rename hrename)]
    constructor
    · refine fun h => ⟨fun hnone => absurd hnone (Option.some_ne_none rename), ?_⟩
      rintro rename' hsome
      rwa [← Option.some.inj hsome]
    · exact fun h => h.2 rename rfl

end RenameReply

/-- The feature does not exist, and its rename is reported as a success. -/
theorem not_featureRename_reports : ¬ ∀ (ops : DriverOps PlainState),
    (∀ rename, ops.opsFeatureRename = some rename → SuppliesRename ops rename) →
      ∀ (s : PlainState) (uid idx : ℤ) (newName : String), RenameReports ops s uid idx newName := by
  intro h
  obtain ⟨reply, s', calls, hrun, hiff⟩ := h (noDriverOps PlainState)
    (fun rename hsome => absurd hsome (Option.some_ne_none rename).symm)
    ⟨idleReader, ⟨EigenInfo.empty, []⟩, fun _ => "u"⟩ 1000 0 "b"
  obtain ⟨hreply, -⟩ := Prod.mk.inj (Option.some.inj hrun)
  obtain ⟨⟨r, hr, -⟩, -⟩ := hiff.mp hreply.symm
  exact absurd hr List.not_mem_nil

/-! ### A driver with a rename -/

/-- The table with the rows of one feature renamed. -/
def EigenInfo.renameKey (db : EigenInfo) (key : FeatureKey) (newName : String) : EigenInfo where
  rows := db.rows.map fun r => if r.key = key then { r with eigenIndexName := newName } else r
  seq := db.seq
  ids_nodup := by
    rw [List.map_map, List.map_congr_left (g := EigenRow.id) fun r _ => by
      rw [Function.comp_apply]
      split <;> rfl]
    exact db.ids_nodup
  ids_le_seq := by
    intro r hr
    obtain ⟨r', hr', rfl⟩ := List.mem_map.mp hr
    have hle := db.ids_le_seq r' hr'
    split <;> exact hle

/-- The rename of such a driver: it looks for the feature and leaves the result. -/
def renameWithResult (uid idx : ℤ) (newName : String) : DriverFun PlainState ℤ := fun s =>
  if s.store.db.rows.any fun r => r.key = deviceFeature s uid idx then
    some (0, { s with
      dev := s.dev.setOpsAbsResult opsRenameSuccess
      store := ⟨s.store.db.renameKey (deviceFeature s uid idx) newName, s.store.outcomes⟩ })
  else some (-1, { s with dev := s.dev.setOpsAbsResult opsRenameFail })

/-- A driver whose open and close have nothing to do. -/
def renamingOps : DriverOps PlainState :=
  { noDriverOps PlainState with
    opsOpen := some fun s => some (0, s)
    opsClose := some fun s => some ((), s)
    opsFeatureRename := some renameWithResult }

/-- Such a driver does what is documented. -/
theorem suppliesRename_renamingOps : SuppliesRename renamingOps renameWithResult where
  opens := ⟨_, rfl, fun s => ⟨0, s, rfl, rfl, fun _ _ => rfl⟩⟩
  closes := ⟨_, rfl, fun s => ⟨s, rfl, rfl, fun _ _ => rfl⟩⟩
  renames uid idx newName s := by
    unfold renameWithResult
    by_cases hany : (s.store.db.rows.any fun r => r.key = deviceFeature s uid idx) = true
    · rw [if_pos hany]
      refine ⟨_, _, rfl, iff_of_true rfl ⟨?_, ?_⟩⟩
      · obtain ⟨r, hr, hkey⟩ := List.any_eq_true.mp hany
        exact ⟨r, hr, of_decide_eq_true hkey⟩
      · intro r' hr' hkey
        obtain ⟨r, hr, rfl⟩ := List.mem_map.mp hr'
        split at hkey
        next hr => rw [if_pos hr]
        next hr => exact absurd hkey hr
    · rw [if_neg hany]
      refine ⟨_, _, rfl, iff_of_false (by decide) ?_⟩
      rintro ⟨⟨r, hr, hkey⟩, -⟩
      exact hany (List.any_eq_true.mpr ⟨r, hr, decide_eq_true hkey⟩)

/-- Its rename of a feature is reported. -/
theorem featureRename_reports_supplied : RenameReports renamingOps
    ⟨idleReader, ⟨EigenInfo.empty.insert 1000 "u" 0 "uru4000" 0 "a" 1 [80], []⟩, fun _ => "u"⟩
    1000 0 "b" := by
  refine (featureRename_reports_iff renamingOps ?_ _ 1000 0 "b").mpr ⟨?_, ?_⟩
  · intro rename hsome
    obtain rfl := Option.some.inj hsome
    exact suppliesRename_renamingOps
  · exact fun hnone => absurd hnone (Option.some_ne_none _)
  · intro rename hsome
    obtain rfl := Option.some.inj hsome
    refine ⟨fun h => absurd h (by decide), ?_, ?_⟩
    · intro _ opsOpen opsClose ret s₁ s₂ hopen _ hret hne
      obtain rfl := Option.some.inj hopen
      exact absurd (Prod.mk.inj (Option.some.inj hret)).1.symm hne
    · intro _ opsOpen opsClose s₁ ret s₂ s₃ hopen hclose hret hret' hret₃
      obtain rfl := Option.some.inj hopen
      obtain rfl := Option.some.inj hclose
      obtain ⟨-, rfl⟩ := Prod.mk.inj (Option.some.inj hret)
      obtain ⟨-, rfl⟩ := Prod.mk.inj (Option.some.inj hret₃)
      obtain ⟨rfl, rfl⟩ := Prod.mk.inj (Option.some.inj hret')
      exact iff_of_true rfl rfl

end BiometricAuth
