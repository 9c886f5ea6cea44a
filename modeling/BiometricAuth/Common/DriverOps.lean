import BiometricAuth.Common.RenameFrame
import BiometricAuth.Storage.Print

/-!
# The driver interface

A driver hands the framework a table of callbacks, each of which may be `NULL`. `DriverOps` is
that table, and `bioOps*` are the functions `bio_ops_*` that call it, over any state of a driver
(`DeviceState`) and any callbacks. A callback that crashes or never returns has no result, and
neither has a call through a `NULL` that is not tested for.

The calls of driver operations are recorded (`DriverOp`); nothing reads the record.

Eight functions begin with the same guard against a disabled device. In `bio_ops_feature_rename`
it stands in the branch for drivers with an `ops_feature_rename` only; without one the database
is changed although the device is disabled.

Main result: `disabled_inert_iff` — when a call on a disabled device does nothing.
-/

namespace BiometricAuth

/-! ### Drivers -/

/-- The state of a driver, as the framework sees it: its `bio_dev`, its connection to the
database and the current UUIDs of the users. -/
class DeviceState (σ : Type) where
  dev : σ → BioDev
  setDev : σ → BioDev → σ
  store : σ → Store
  setStore : σ → Store → σ
  uuidOf : σ → ℤ → String
  dev_setDev (s : σ) (d : BioDev) : dev (setDev s d) = d
  store_setDev (s : σ) (d : BioDev) : store (setDev s d) = store s
  uuidOf_setDev (s : σ) (d : BioDev) : uuidOf (setDev s d) = uuidOf s
  dev_setStore (s : σ) (c : Store) : dev (setStore s c) = dev s
  store_setStore (s : σ) (c : Store) : store (setStore s c) = c

attribute [simp] DeviceState.dev_setDev DeviceState.store_setDev DeviceState.uuidOf_setDev
  DeviceState.dev_setStore DeviceState.store_setStore

/-- The state of a driver without data of its own. -/
structure PlainState where
  dev : BioDev
  store : Store
  uuidOf : ℤ → String

instance deviceStatePlain : DeviceState PlainState where
  dev := PlainState.dev
  setDev s d := { s with dev := d }
  store := PlainState.store
  setStore s c := { s with store := c }
  uuidOf := PlainState.uuidOf
  dev_setDev _ _ := rfl
  store_setDev _ _ := rfl
  uuidOf_setDev _ _ := rfl
  dev_setStore _ _ := rfl
  store_setStore _ _ := rfl

/-- A function of a driver. -/
abbrev DriverFun (σ α : Type) := σ → Option (α × σ)

/-- The operations of a driver in `bio_dev`; `none` is `NULL`. The argument `action`, which is
always `ACTION_START`, is left out. -/
structure DriverOps (σ : Type) where
  opsOpen : Option (DriverFun σ ℤ)
  opsClose : Option (DriverFun σ Unit)
  opsCapture : Option (DriverFun σ (Option Bytes))
  opsEnroll : Option (ℤ → ℤ → String → DriverFun σ ℤ)
  opsVerify : Option (ℤ → ℤ → DriverFun σ ℤ)
  opsIdentify : Option (ℤ → ℤ → ℤ → DriverFun σ ℤ)
  opsSearch : Option (ℤ → ℤ → ℤ → DriverFun σ (List FeatureInfo))
  opsClean : Option (ℤ → ℤ → ℤ → DriverFun σ ℤ)
  opsGetFeatureList : Option (ℤ → ℤ → ℤ → DriverFun σ (List FeatureInfo))
  opsFeatureRename : Option (ℤ → ℤ → String → DriverFun σ ℤ)

/-- Which operation of a driver is called. -/
inductive DriverOp
  | opsOpen | opsClose | opsCapture | opsEnroll | opsVerify | opsIdentify | opsSearch | opsClean
  | opsGetFeatureList | opsFeatureRename
deriving DecidableEq, Repr

/-- A function of the framework: it works on the state of a driver and records the calls. -/
abbrev Framework (σ α : Type) := StateT (σ × List DriverOp) Option α

/-- The guard of the operations: what they report of a disabled device. -/
def BioDev.setCommDisable (dev : BioDev) : BioDev :=
  ((dev.setDevStatus devsCommDisable).setOpsResult opsCommError).setNotifyMid notifyCommDisable

/-- What the operations report when the driver lacks the function. -/
def BioDev.setUnsupportedOps (dev : BioDev) : BioDev :=
  (dev.setOpsResult opsCommError).setNotifyAbsMid notifyCommUnsupportedOps

theorem Framework.bind_apply {σ α β : Type} (p : Framework σ α) (f : α → Framework σ β)
    (st : σ × List DriverOp) : (p >>= f) st = (p st).bind fun r => f r.1 r.2 := rfl

theorem Framework.discard_apply {σ α : Type} (p : Framework σ α) (st : σ × List DriverOp) :
    discard p st = (p st).map fun r => ((), r.2) := by
  show (p st).bind _ = _
  cases p st <;> rfl

/-- Call a function of the driver. -/
def callDriver {σ α : Type} (op : DriverOp) (callback : Option (DriverFun σ α)) : Framework σ α :=
  fun (s, calls) => do
    let f ← callback
    let (a, s) ← f s
    some (a, (s, calls ++ [op]))

theorem callDriver_eq {σ α : Type} {op : DriverOp} {f : DriverFun σ α} {s s' : σ} {a : α}
    (h : f s = some (a, s')) (calls : List DriverOp) :
    callDriver op (some f) (s, calls) = some (a, (s', calls ++ [op])) := by
  show ((f s).bind _) = _
  rw [h]
  rfl

theorem callDriver_run {σ α : Type} {op : DriverOp} {callback : Option (DriverFun σ α)} {s s' : σ}
    {calls calls' : List DriverOp} {a : α}
    (h : callDriver op callback (s, calls) = some (a, (s', calls'))) :
    ∃ f, callback = some f ∧ f s = some (a, s') := by
  obtain ⟨f, hf, h⟩ := Option.bind_eq_some_iff.mp h
  obtain ⟨⟨b, s₁⟩, hcall, h⟩ := Option.bind_eq_some_iff.mp h
  obtain ⟨rfl, hs⟩ := Prod.mk.inj (Option.some.inj h)
  obtain ⟨rfl, -⟩ := Prod.mk.inj hs
  exact ⟨f, hf, hcall⟩

section Ops

variable {σ α : Type} [DeviceState σ]

/-- The `bio_dev`. -/
def getDev : Framework σ BioDev := fun (s, calls) => some (DeviceState.dev s, (s, calls))

/-- Set status words. -/
def modifyDev (f : BioDev → BioDev) : Framework σ Unit := fun (s, calls) =>
  some ((), (DeviceState.setDev s (f (DeviceState.dev s)), calls))

theorem getDev_bind {β : Type} (f : BioDev → Framework σ β) (s : σ) (calls : List DriverOp) :
    (getDev >>= f) (s, calls) = f (DeviceState.dev s) (s, calls) := rfl

theorem modifyDev_bind {β : Type} (g : BioDev → BioDev) (f : Unit → Framework σ β) (s : σ)
    (calls : List DriverOp) : (modifyDev g >>= f) (s, calls) =
      f () (DeviceState.setDev s (g (DeviceState.dev s)), calls) := rfl

/-- `bio_common_get_feature_list`. -/
def bioCommonGetFeatureList (uid idxStart idxEnd : ℤ) : Framework σ (List FeatureInfo) := do
  let dev ← getDev
  if dev.enable = false then
    modifyDev fun dev => dev.setDevStatus devsCommDisable
    return []
  else
    modifyDev fun dev => dev.setDevStatus devsGetFlistDoing
    let found ← fun (s, calls) =>
      (listFeatureInfo (DeviceState.uuidOf s) (DeviceState.store s).db
        (dev.query uid idxStart idxEnd)).map fun infos => (infos, (s, calls))
    modifyDev fun dev =>
      ((dev.setDevStatus devsCommIdle).setOpsAbsResult opsGetFlistSuccess).setNotifyAbsMid
        notifyGetFlistSuccess
    return found

/-- `bio_comm_feature_rename_by_db`, on a connection to the database. -/
def renameByDb (uid idx : ℤ) (newName : String) : Framework σ ℤ := fun (s, calls) =>
  (bioCommFeatureRenameByDb (DeviceState.uuidOf s) (DeviceState.store s) (DeviceState.dev s) uid
    idx newName).map fun r => (r.1, (DeviceState.setStore s r.2, calls))

/-- The framework's own rename, in `bio_ops_feature_rename`. -/
def bioOpsDefaultRename (uid idx : ℤ) (newName : String) : Framework σ ℤ := do
  modifyDev fun dev => dev.setDevAbsStatus devsRenameDoing
  let ret ← renameByDb uid idx newName
  if ret = 0 then
    modifyDev fun dev => dev.setAllAbsStatus devsCommIdle opsRenameSuccess notifyRenameSuccess
  else
    modifyDev fun dev => dev.setAllAbsStatus devsCommIdle opsRenameFail notifyRenameIncomplete
  return ret

namespace DriverOps

variable (ops : DriverOps σ)

/-- What most operations have in common: the guard, open, the function of the driver unless open
failed, and close. They return `failed` of a disabled device and of a driver without the
function, and `unopened` where open has failed. -/
def bioOpsCall (op : DriverOp) (callback : Option (DriverFun σ α)) (failed : α)
    (unopened : ℤ → α) : Framework σ α := do
  let dev ← getDev
  if dev.enable = false then
    modifyDev BioDev.setCommDisable
    return failed
  else
    let ret ← callDriver .opsOpen ops.opsOpen
    let value ←
      if ret = 0 then
        if callback.isSome then
          callDriver op callback
        else do
          modifyDev BioDev.setUnsupportedOps
          pure failed
      else pure (unopened ret)
    callDriver .opsClose ops.opsClose
    return value

/-- `bio_ops_capture`. -/
def bioOpsCapture : Framework σ (Option Bytes) := do
  let dev ← getDev
  let caps ← ops.bioOpsCall .opsCapture ops.opsCapture none fun _ => none
  return if dev.enable = false then none else some (bioNewString caps)

/-- `bio_ops_enroll`. -/
def bioOpsEnroll (uid idx : ℤ) (idxName : String) : Framework σ ℤ :=
  ops.bioOpsCall .opsEnroll (ops.opsEnroll.map fun f => f uid idx idxName) (-1) id

/-- `bio_ops_verify`. -/
def bioOpsVerify (uid idx : ℤ) : Framework σ ℤ :=
  ops.bioOpsCall .opsVerify (ops.opsVerify.map fun f => f uid idx) (-1) id

/-- `bio_ops_identify`. -/
def bioOpsIdentify (uid idxStart idxEnd : ℤ) : Framework σ ℤ :=
  ops.bioOpsCall .opsIdentify (ops.opsIdentify.map fun f => f uid idxStart idxEnd) (-1) fun _ => -1

/-- `bio_ops_search`. -/
def bioOpsSearch (uid idxStart idxEnd : ℤ) : Framework σ (List FeatureInfo) :=
  ops.bioOpsCall .opsSearch (ops.opsSearch.map fun f => f uid idxStart idxEnd) [] fun _ => []

/-- `bio_ops_clean`. -/
def bioOpsClean (uid idxStart idxEnd : ℤ) : Framework σ ℤ :=
  ops.bioOpsCall .opsClean (ops.opsClean.map fun f => f uid idxStart idxEnd) (-1) id

/-- `bio_ops_get_feature_list`. -/
def bioOpsGetFeatureList (uid idxStart idxEnd : ℤ) : Framework σ (List FeatureInfo) := do
  let dev ← getDev
  if dev.enable = false then
    modifyDev BioDev.setCommDisable
    return []
  else
    match ops.opsGetFeatureList with
    | some f =>
      let ret ← callDriver .opsOpen ops.opsOpen
      let flist ←
        if ret = 0 then callDriver .opsGetFeatureList (some (f uid idxStart idxEnd)) else pure []
      callDriver .opsClose ops.opsClose
      return flist
    | none => bioCommonGetFeatureList uid idxStart idxEnd

/-- `bio_ops_feature_rename`. With a function of the driver it returns what open did. -/
def bioOpsFeatureRename (uid idx : ℤ) (newName : String) : Framework σ ℤ :=
  match ops.opsFeatureRename with
  | some f => do
    let dev ← getDev
    if dev.enable = false then
      modifyDev BioDev.setCommDisable
      return -1
    else
      let ret ← callDriver .opsOpen ops.opsOpen
      if ret = 0 then
        let _ ← callDriver .opsFeatureRename (some (f uid idx newName))
      callDriver .opsClose ops.opsClose
      return ret
  | none => bioOpsDefaultRename uid idx newName

end DriverOps

/-! ### Calls of the framework -/

/-- A call of one of the eight functions. -/
inductive OpsCall
  | capture
  | enroll (uid idx : ℤ) (idxName : String)
  | verify (uid idx : ℤ)
  | identify (uid idxStart idxEnd : ℤ)
  | search (uid idxStart idxEnd : ℤ)
  | clean (uid idxStart idxEnd : ℤ)
  | getFeatureList (uid idxStart idxEnd : ℤ)
  | featureRename (uid idx : ℤ) (newName : String)
deriving DecidableEq, Repr

/-- The function that is called, without what it returns. -/
def OpsCall.run (ops : DriverOps σ) : OpsCall → Framework σ Unit
  | .capture => discard (ops.bioOpsCapture)
  | .enroll uid idx idxName => discard (ops.bioOpsEnroll uid idx idxName)
  | .verify uid idx => discard (ops.bioOpsVerify uid idx)
  | .identify uid idxStart idxEnd => discard (ops.bioOpsIdentify uid idxStart idxEnd)
  | .search uid idxStart idxEnd => discard (ops.bioOpsSearch uid idxStart idxEnd)
  | .clean uid idxStart idxEnd => discard (ops.bioOpsClean uid idxStart idxEnd)
  | .getFeatureList uid idxStart idxEnd => discard (ops.bioOpsGetFeatureList uid idxStart idxEnd)
  | .featureRename uid idx newName => discard (ops.bioOpsFeatureRename uid idx newName)

/-- `OPS_COMM_SUCCESS` and its likes, the code `0` of an operation type. -/
def IsSuccessCode (opsResult : ℤ) : Prop :=
  ∃ type, opsTypeComm ≤ type ∧ type ≤ opsTypeClose ∧ opsResult = type * 100

/-- The call returns, has called no operation of the driver, has not changed `EIGEN_INFO` and
does not report a success. -/
def Inert (ops : DriverOps σ) (s : σ) (call : OpsCall) : Prop :=
  ∃ s', call.run ops (s, []) = some ((), (s', [])) ∧
    (DeviceState.store s').db = (DeviceState.store s).db ∧
    ¬ IsSuccessCode (DeviceState.dev s').opsResult

end Ops

/-! ### An enabled device -/

/-- A run of the common part of the operations on an enabled device. -/
theorem bioOpsCall_run {σ α : Type} [DeviceState σ] {ops : DriverOps σ} {op : DriverOp}
    {callback : Option (DriverFun σ α)} {failed a : α} {unopened : ℤ → α} {s s' : σ}
    {calls calls' : List DriverOp} (henable : (DeviceState.dev s).enable = true)
    (h : ops.bioOpsCall op callback failed unopened (s, calls) = some (a, (s', calls'))) :
    ∃ opsOpen opsClose ret s₁ s₂, ops.opsOpen = some opsOpen ∧ ops.opsClose = some opsClose ∧
      opsOpen s = some (ret, s₁) ∧ opsClose s₂ = some ((), s') ∧
      (ret = 0 ∧ (∃ f, callback = some f ∧ f s₁ = some (a, s₂)) ∨
        ret = 0 ∧ callback = none ∧
          s₂ = DeviceState.setDev s₁ (DeviceState.dev s₁).setUnsupportedOps ∨
        ret ≠ 0 ∧ s₂ = s₁) := by
  -- whatever comes before, the device is closed at the end, and its result is handed on
  have hclose : ∀ (value : α) s₂ calls₂,
      (do callDriver .opsClose ops.opsClose; return value : Framework σ α) (s₂, calls₂) =
        some (a, (s', calls')) →
      value = a ∧ ∃ opsClose, ops.opsClose = some opsClose ∧ opsClose s₂ = some ((), s') := by
    intro value s₂ calls₂ h
    rw [Framework.bind_apply] at h
    obtain ⟨⟨_, s₃, calls₃⟩, hcall, h⟩ := Option.bind_eq_some_iff.mp h
    obtain ⟨rfl, hs⟩ := Prod.mk.inj (Option.some.inj h)
    obtain ⟨rfl, -⟩ := Prod.mk.inj hs
    exact ⟨rfl, callDriver_run hcall⟩
  unfold DriverOps.bioOpsCall at h
  rw [getDev_bind, if_neg (by rw [henable]; exact Bool.noConfusion), Framework.bind_apply] at h
  obtain ⟨⟨ret, s₁, calls₁⟩, hopen, h⟩ := Option.bind_eq_some_iff.mp h
  obtain ⟨opsOpen, hopsOpen, hopen⟩ := callDriver_run hopen
  by_cases hret : ret = 0
  · -- the driver has opened the device
    simp only [if_pos hret] at h
    -- it has no function for the operation
    cases hcallback : callback with
    | none =>
      rw [hcallback, if_neg (by simp), modifyDev_bind] at h
      obtain ⟨-, opsClose, hopsClose, hclosed⟩ := hclose _ _ _ h
      exact ⟨opsOpen, opsClose, ret, s₁, _, hopsOpen, hopsClose, hopen, hclosed,
        .inr (.inl ⟨hret, rfl, rfl⟩)⟩
    | some f =>
      -- it has one, which is called
      rw [hcallback, if_pos Option.isSome_some, Framework.bind_apply] at h
      obtain ⟨⟨value, s₂, calls₂⟩, hcall, h⟩ := Option.bind_eq_some_iff.mp h
      obtain ⟨_, ⟨⟩, hcall⟩ := callDriver_run hcall
      obtain ⟨rfl, opsClose, hopsClose, hclosed⟩ := hclose _ _ _ h
      exact ⟨opsOpen, opsClose, ret, s₁, s₂, hopsOpen, hopsClose, hopen, hclosed,
        .inl ⟨hret, f, rfl, hcall⟩⟩
  · -- it has not opened it, and the operation is not called
    simp only [if_neg hret] at h
    obtain ⟨-, opsClose, hopsClose, hclosed⟩ := hclose _ _ _ h
    exact ⟨opsOpen, opsClose, ret, s₁, s₁, hopsOpen, hopsClose, hopen, hclosed,
      .inr (.inr ⟨hret, rfl⟩)⟩

/-! ### The guard -/

section Disabled

variable {σ α : Type} [DeviceState σ] {ops : DriverOps σ} {s : σ}

theorem setCommDisable_opsResult (dev : BioDev) : dev.setCommDisable.opsResult = opsCommError := by
  rfl

theorem not_isSuccessCode {opsResult : ℤ} (h : opsResult.tmod 100 ≠ 0) :
    ¬ IsSuccessCode opsResult := by
  rintro ⟨type, -, -, rfl⟩
  exact h (Int.mul_tmod_left type 100)

/-- The state in which the guard leaves a disabled device. -/
def guardedState (s : σ) : σ := DeviceState.setDev s (DeviceState.dev s).setCommDisable

/-- The common part of the operations leaves a disabled device at the guard. -/
theorem bioOpsCall_disabled (hdisabled : (DeviceState.dev s).enable = false) (op : DriverOp)
    (callback : Option (DriverFun σ α)) (failed : α) (unopened : ℤ → α) (calls : List DriverOp) :
    ops.bioOpsCall op callback failed unopened (s, calls) =
      some (failed, (guardedState s, calls)) := by
  unfold DriverOps.bioOpsCall
  rw [getDev_bind, if_pos hdisabled]
  rfl

theorem bioOpsCapture_disabled (hdisabled : (DeviceState.dev s).enable = false) :
    OpsCall.capture.run ops (s, []) = some ((), (guardedState s, [])) := by
  show discard ops.bioOpsCapture (s, []) = _
  rw [Framework.discard_apply, DriverOps.bioOpsCapture, getDev_bind, Framework.bind_apply,
    bioOpsCall_disabled hdisabled]
  rfl

/-- The guard comes before the question whether the driver has the function. -/
theorem bioOpsGetFeatureList_disabled (hdisabled : (DeviceState.dev s).enable = false)
    (uid idxStart idxEnd : ℤ) :
    (OpsCall.getFeatureList uid idxStart idxEnd).run ops (s, []) =
      some ((), (guardedState s, [])) := by
  show discard (ops.bioOpsGetFeatureList uid idxStart idxEnd) (s, []) = _
  rw [Framework.discard_apply, DriverOps.bioOpsGetFeatureList, getDev_bind, if_pos hdisabled]
  rfl

/-- In a rename it comes after that. -/
theorem bioOpsFeatureRename_disabled (hdisabled : (DeviceState.dev s).enable = false)
    (uid idx : ℤ) (newName : String) (hrename : ops.opsFeatureRename ≠ none) :
    (OpsCall.featureRename uid idx newName).run ops (s, []) =
      some ((), (guardedState s, [])) := by
  obtain ⟨f, hf⟩ := Option.ne_none_iff_exists'.mp hrename
  show discard (ops.bioOpsFeatureRename uid idx newName) (s, []) = _
  rw [Framework.discard_apply, DriverOps.bioOpsFeatureRename, hf]
  simp only [getDev_bind, if_pos hdisabled]
  rfl

/-- Left at the guard, a call is inert. -/
theorem inert_of_guarded {call : OpsCall}
    (h : call.run ops (s, []) = some ((), (guardedState s, []))) : Inert ops s call := by
  refine ⟨guardedState s, h, ?_, ?_⟩
  · rw [guardedState, DeviceState.store_setDev]
  · rw [guardedState, DeviceState.dev_setDev, setCommDisable_opsResult]
    exact not_isSuccessCode (by decide)

/-! ### The rename without a function of the driver -/

/-- The rename leaves the table alone and fails: an update fails, and the rows of those that do
not already have what is set. -/
def RenamesNothing (uuidOf : ℤ → String) (c : Store) (dev : BioDev) (uid idx : ℤ)
    (newName : String) : Prop :=
  ∃ infos, bioStoGetFeatureInfo uuidOf c.db (dev.query uid idx idx) = some infos ∧
    (∃ u ∈ renameUpdates c infos uid idx, u.2 = false) ∧
    ∀ u ∈ renameUpdates c infos uid idx, u.2 = true →
      ∀ r ∈ c.db.rows, r.id = u.1.dbid → r.refiled dev uid idx newName = r

theorem refileRows_eq_self_iff {dev : BioDev} {uid idx : ℤ} {newName : String}
    {updates : List (FeatureSample × Bool)} {rows : List EigenRow} :
    refileRows dev uid idx newName updates rows = rows ↔
      ∀ u ∈ updates, u.2 = true → ∀ r ∈ rows, r.id = u.1.dbid →
        r.refiled dev uid idx newName = r := by
  conv_lhs => rhs; rw [← List.map_id rows]
  rw [refileRows, List.map_inj_left]
  constructor
  · intro h u hu htrue r hr hid
    have hr' := h r hr
    rwa [if_pos ⟨u, hu, hid.symm, htrue⟩] at hr'
  · intro h r hr
    split
    next hfound =>
      obtain ⟨u, hu, hid, htrue⟩ := hfound
      exact h u hu htrue r hr hid.symm
    next => rfl

/-- The rename does not look at the status of the device. -/
theorem renameByDb_setDevAbsStatus (uid idx : ℤ) (newName : String) (status : ℤ)
    (calls : List DriverOp) :
    renameByDb uid idx newName
        (DeviceState.setDev s ((DeviceState.dev s).setDevAbsStatus status), calls) =
      (bioCommFeatureRenameByDb (DeviceState.uuidOf s) (DeviceState.store s) (DeviceState.dev s)
        uid idx newName).map fun r => (r.1, (DeviceState.setStore
          (DeviceState.setDev s ((DeviceState.dev s).setDevAbsStatus status)) r.2, calls)) := by
  simp only [renameByDb, DeviceState.uuidOf_setDev, DeviceState.store_setDev,
    DeviceState.dev_setDev]
  rfl

/-- What the framework's own rename does to a device, enabled or not. -/
theorem bioOpsDefaultRename_spec {uid idx : ℤ} {newName : String} {ret : ℤ} {c' : Store}
    (hrename : bioCommFeatureRenameByDb (DeviceState.uuidOf s) (DeviceState.store s)
      (DeviceState.dev s) uid idx newName = some (ret, c')) (calls : List DriverOp) :
    ∃ s', bioOpsDefaultRename uid idx newName (s, calls) = some (ret, (s', calls)) ∧
      DeviceState.store s' = c' ∧
      (DeviceState.dev s').opsResult = if ret = 0 then opsRenameSuccess else opsRenameFail := by
  unfold bioOpsDefaultRename
  rw [modifyDev_bind, Framework.bind_apply, renameByDb_setDevAbsStatus, hrename, Option.map_some,
    Option.bind_some]
  by_cases hret : ret = 0
  · rw [if_pos hret, if_pos hret]
    refine ⟨_, rfl, ?_, ?_⟩
    · rw [DeviceState.store_setDev, DeviceState.store_setStore]
    · rw [DeviceState.dev_setDev]
      rfl
  · rw [if_neg hret, if_neg hret]
    refine ⟨_, rfl, ?_, ?_⟩
    · rw [DeviceState.store_setDev, DeviceState.store_setStore]
    · rw [DeviceState.dev_setDev]
      rfl

/-- Where the reader crashes, so does the rename. -/
theorem bioOpsDefaultRename_none {uid idx : ℤ} {newName : String}
    (hrename : bioCommFeatureRenameByDb (DeviceState.uuidOf s) (DeviceState.store s)
      (DeviceState.dev s) uid idx newName = none) (calls : List DriverOp) :
    bioOpsDefaultRename uid idx newName (s, calls) = none := by
  unfold bioOpsDefaultRename
  rw [modifyDev_bind, Framework.bind_apply, renameByDb_setDevAbsStatus, hrename]
  rfl

/-- Without a function of the driver a rename is inert when it leaves the table alone and
fails. -/
theorem inert_defaultRename_iff (uid idx : ℤ) (newName : String)
    (hnone : ops.opsFeatureRename = none) :
    Inert ops s (.featureRename uid idx newName) ↔
      RenamesNothing (DeviceState.uuidOf s) (DeviceState.store s) (DeviceState.dev s) uid idx
        newName := by
  have hrun : (OpsCall.featureRename uid idx newName).run ops (s, []) =
      (bioOpsDefaultRename uid idx newName (s, [])).map fun r => ((), r.2) := by
    show discard (ops.bioOpsFeatureRename uid idx newName) (s, []) = _
    rw [Framework.discard_apply, DriverOps.bioOpsFeatureRename, hnone]
  unfold Inert
  rw [hrun]
  cases hread : bioStoGetFeatureInfo (DeviceState.uuidOf s) (DeviceState.store s).db
    ((DeviceState.dev s).query uid idx idx) with
  | none =>
    -- the reader crashes, and so does the call
    have hrename : bioCommFeatureRenameByDb (DeviceState.uuidOf s) (DeviceState.store s)
        (DeviceState.dev s) uid idx newName = none := by
      rw [bioCommFeatureRenameByDb, hread]
      rfl
    rw [bioOpsDefaultRename_none hrename]
    refine iff_of_false ?_ ?_
    · rintro ⟨s', h, -⟩
      cases h
    · rintro ⟨infos, h, -⟩
      cases hread.symm.trans h
  | some infos =>
    -- the reader gets through: the updates decide
    obtain ⟨c', hrename, hseq, hrows⟩ := bioCommFeatureRenameByDb_eq newName hread
    obtain ⟨s', hdefault, hstore, hresult⟩ := bioOpsDefaultRename_spec hrename []
    -- the table is as it was if no update that is executed changes its row
    have hdb : c'.db = (DeviceState.store s).db ↔
        ∀ u ∈ renameUpdates (DeviceState.store s) infos uid idx, u.2 = true →
          ∀ r ∈ (DeviceState.store s).db.rows, r.id = u.1.dbid →
            r.refiled (DeviceState.dev s) uid idx newName = r := by
      rw [← refileRows_eq_self_iff, ← hrows]
      exact ⟨congrArg EigenInfo.rows, fun h => EigenInfo.ext h hseq⟩
    -- the call fails if an update does
    have hfails : ¬ IsSuccessCode (DeviceState.dev s').opsResult ↔
        ∃ u ∈ renameUpdates (DeviceState.store s) infos uid idx, u.2 = false := by
      rw [hresult]
      by_cases hcount : (renameUpdates (DeviceState.store s) infos uid idx).countP
          (fun u => u.2 = false) = 0
      · -- all updates have succeeded
        rw [if_pos (by exact_mod_cast hcount)]
        refine iff_of_false (not_not.mpr ⟨opsTypeRename, by decide, by decide, rfl⟩) ?_
        rintro ⟨u, hu, hfalse⟩
        exact List.countP_eq_zero.mp hcount u hu (decide_eq_true hfalse)
      · rw [if_neg (by exact_mod_cast hcount)]
        refine iff_of_true (not_isSuccessCode (by decide)) ?_
        obtain ⟨u, hu, hfalse⟩ := List.countP_pos_iff.mp (Nat.pos_of_ne_zero hcount)
        exact ⟨u, hu, of_decide_eq_true hfalse⟩
    rw [hdefault]
    constructor
    · rintro ⟨s'', h, hsame, hcode⟩
      obtain rfl : s' = s'' := by
        simpa using h
      rw [hstore] at hsame
      exact ⟨infos, hread, hfails.mp hcode, hdb.mp hsame⟩
    · rintro ⟨infos', hread', hfailed, hsame⟩
      obtain rfl := Option.some.inj (hread.symm.trans hread')
      refine ⟨s', rfl, ?_, hfails.mpr hfailed⟩
      rw [hstore]
      exact hdb.mpr hsame

/-- **Disabled devices.** Whatever the driver provides, a call on a disabled device does nothing
and reports no success, exactly if it is not a rename of a driver without a function for it, or
that rename leaves the table alone and fails. -/
theorem disabled_inert_iff (ops : DriverOps σ) (s : σ)
    (hdisabled : (DeviceState.dev s).enable = false) (call : OpsCall) :
    Inert ops s call ↔ ∀ uid idx newName, call = .featureRename uid idx newName →
      ops.opsFeatureRename = none →
        RenamesNothing (DeviceState.uuidOf s) (DeviceState.store s) (DeviceState.dev s) uid idx
          newName := by
  -- all calls but a rename end at the guard
  have hguarded : (∀ uid idx newName, call ≠ .featureRename uid idx newName) →
      call.run ops (s, []) = some ((), (guardedState s, [])) := by
    intro hcall
    cases call with
    | capture => exact bioOpsCapture_disabled hdisabled
    | getFeatureList uid idxStart idxEnd => exact bioOpsGetFeatureList_disabled hdisabled _ _ _
    | featureRename uid idx newName => exact absurd rfl (hcall uid idx newName)
    | enroll | verify | identify | search | clean =>
      show discard (ops.bioOpsCall _ _ _ _) (s, []) = _
      rw [Framework.discard_apply, bioOpsCall_disabled hdisabled]
      rfl
  by_cases hcall : ∃ uid idx newName, call = .featureRename uid idx newName
  · -- a rename is guarded only where the driver has a function for it
    obtain ⟨uid, idx, newName, rfl⟩ := hcall
    by_cases hrename : ops.opsFeatureRename = none
    · rw [inert_defaultRename_iff uid idx newName hrename]
      constructor
      · rintro h uid' idx' newName' ⟨⟩ -
        exact h
      · exact fun h => h uid idx newName rfl hrename
    · refine iff_of_true (inert_of_guarded ?_) fun _ _ _ _ h => absurd h hrename
      exact bioOpsFeatureRename_disabled hdisabled uid idx newName hrename
  · push Not at hcall
    exact iff_of_true (inert_of_guarded (hguarded hcall)) fun uid idx newName h =>
      absurd h (hcall uid idx newName)

end Disabled

/-- A driver that provides nothing. -/
def noDriverOps (σ : Type) : DriverOps σ :=
  { opsOpen := none, opsClose := none, opsCapture := none, opsEnroll := none, opsVerify := none,
    opsIdentify := none, opsSearch := none, opsClean := none, opsGetFeatureList := none,
    opsFeatureRename := none }

/-- A disabled reader and a database with one feature. -/
def disabledState (outcomes : List Bool) : PlainState where
  dev := { idleReader with enable := false }
  store := ⟨EigenInfo.empty.insert 1000 "u" 0 "uru4000" 0 "a" 1 [80], outcomes⟩
  uuidOf := fun _ => "u"

/-- The feature of a disabled reader is renamed. -/
theorem not_disabled_inert : ¬ ∀ (ops : DriverOps PlainState) (s : PlainState),
    (DeviceState.dev s).enable = false → ∀ call, Inert ops s call := by
  intro h
  obtain ⟨s', hrun, hsame, -⟩ :=
    h (noDriverOps PlainState) (disabledState []) rfl (.featureRename 1000 0 "b")
  obtain ⟨-, hs⟩ := Prod.mk.inj (Option.some.inj hrun)
  obtain ⟨rfl, -⟩ := Prod.mk.inj hs
  exact absurd (congrArg EigenInfo.rows hsame) (by decide)

/-- The one `UPDATE` fails, and so does the rename. -/
theorem disabled_inert_failing : Inert (noDriverOps PlainState) (disabledState [false])
    (.featureRename 1000 0 "b") := by
  refine (disabled_inert_iff _ _ rfl _).mpr fun uid idx newName h _ => ?_
  obtain ⟨rfl, rfl, rfl⟩ := OpsCall.featureRename.inj h
  exact ⟨_, rfl, ⟨_, List.mem_cons_self, rfl⟩, by decide⟩

end BiometricAuth
