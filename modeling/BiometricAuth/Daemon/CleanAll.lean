import BiometricAuth.Daemon.Bodies
import BiometricAuth.Driver.OpsTable
import BiometricAuth.Storage.Clean

/-!
# What a Clean of all drivers replies

For the driver id `-1` `gdbus_clean_pt` cleans through every driver of the driver list, and then
deletes the features of the range from the database itself, of all drivers. The features are
gone if that last `DELETE` succeeds, whatever the drivers did. The reply is a success only if it
has succeeded and every driver has too: a driver whose device is not attached, is busy or
disabled makes it an error.

The drivers share the table, each through its own connection. What their functions do is a
contract (`CleansOwn`), which the community driver keeps (`cleansOwn_uru4000Ops`).

Main results:

* `CleanRequest.cleanBySingleDev_run`: what one driver does, for any state of it;
* `CleanRequest.cleanDrivers_run`: the loop;
* `cleanAll_reports_iff`: when the reply says whether the features of the range are gone.
-/

namespace BiometricAuth

open Process

/-! ### The handler -/

/-- An entry of `bio_drv_list`: the functions of a driver and its state. -/
structure ListedDriver (σ : Type) where
  ops : DriverOps σ
  state : σ

/-- The features that are to be cleaned, with what the handler finds: the devices and which
mutexes are free. -/
structure CleanRequest where
  devList : List BioDev
  isFree : ℤ → Bool
  uid : ℤ
  idxStart : ℤ
  idxEnd : ℤ

/-- The arguments of the system-level `bio_sto_clean_feature_info`. -/
def CleanRequest.query (req : CleanRequest) : FeatureQuery where
  uid := req.uid
  biotype := -1
  driver := none
  indexStart := req.idxStart
  indexEnd := req.idxEnd

section CleanAll

variable {σ : Type} [DeviceState σ]

namespace ListedDriver

/-- The device of the driver. -/
def dev (d : ListedDriver σ) : BioDev := DeviceState.dev d.state

/-- The state in which the driver sees the table `db`. -/
def withDb (d : ListedDriver σ) (db : EigenInfo) : σ :=
  DeviceState.setStore d.state ⟨db, (DeviceState.store d.state).outcomes⟩

end ListedDriver

variable (req : CleanRequest)

/-- `gdbus_clean_by_single_dev` on a table, with what it returns. -/
def CleanRequest.cleanBySingleDev (d : ListedDriver σ) (db : EigenInfo) : Option (ℤ × EigenInfo) :=
  if req.devList.find? (fun dev => dev.driverId = d.dev.driverId) = none then
    some (-retNoSuchDevice, db)
  else if req.isFree d.dev.driverId = false then
    some (-retDeviceBusy, db)
  else do
    let (_, (s, _)) ← d.ops.bioOpsClean req.uid req.idxStart req.idxEnd (d.withDb db, [])
    some (Request.commonCode (DeviceState.dev s).opsResult, (DeviceState.store s).db)

/-- The loop over the drivers. -/
def CleanRequest.cleanDrivers : List (ListedDriver σ) → ℤ → EigenInfo → Option (ℤ × EigenInfo)
  | [], ret, db => some (ret, db)
  | d :: drivers, ret, db => do
    let (singleRet, db) ← req.cleanBySingleDev d db
    CleanRequest.cleanDrivers drivers (if ret = 0 then singleRet else ret) db

/-- `gdbus_clean_pt` for the driver id `-1`, once it is authorised: the reply and the table
afterwards. `outcomes` are those of the SQL calls of the handler itself. -/
def CleanRequest.cleanAll (drivers : List (ListedDriver σ)) (outcomes : List Bool)
    (db : EigenInfo) : Option (ℤ × EigenInfo) := do
  let (ret, db) ← req.cleanDrivers drivers 0 db
  let ret := if ret ≠ 0 then -retOpsError else ret
  let (singleRet, c) := bioStoCleanFeatureInfo ⟨db, outcomes⟩ req.query
  some (if singleRet = 0 then ret else -retOpsError, c.db)

/-! ### Drivers -/

/-- A function of a driver leaves alone what device it is the driver of. -/
structure SameDevice (s s' : σ) : Prop where
  enable : (DeviceState.dev s').enable = (DeviceState.dev s).enable
  biotype : (DeviceState.dev s').biotype = (DeviceState.dev s).biotype
  deviceName : (DeviceState.dev s').deviceName = (DeviceState.dev s).deviceName

/-- What the functions of a driver do on an enabled device: open and close leave the table alone,
open does not report a success when it fails, close leaves the result or reports a failure, and
clean deletes the features of its device and says so, or fails and says so. -/
structure CleansOwn (ops : DriverOps σ) : Prop where
  opens : ∀ opsOpen, ops.opsOpen = some opsOpen → ∀ s ret s', (DeviceState.dev s).enable = true →
    opsOpen s = some (ret, s') → SameDevice s s' ∧
      (DeviceState.store s').db = (DeviceState.store s).db ∧
      (ret ≠ 0 → (DeviceState.dev s').opsResult.tmod 100 ≠ opsCommSuccess)
  cleans : ∀ opsClean, ops.opsClean = some opsClean → ∀ uid idxStart idxEnd s ret s',
    (DeviceState.dev s).enable = true → opsClean uid idxStart idxEnd s = some (ret, s') →
      SameDevice s s' ∧
      (ret = 0 ∧ (DeviceState.store s').db = (DeviceState.store s).db.delete
          ((DeviceState.dev s).query uid idxStart idxEnd).deletes ∧
          (DeviceState.dev s').opsResult.tmod 100 = opsCommSuccess ∨
        ret ≠ 0 ∧ (DeviceState.store s').db = (DeviceState.store s).db ∧
          (DeviceState.dev s').opsResult.tmod 100 ≠ opsCommSuccess)
  closes : ∀ opsClose, ops.opsClose = some opsClose → ∀ s s', (DeviceState.dev s).enable = true →
    opsClose s = some ((), s') → (DeviceState.store s').db = (DeviceState.store s).db ∧
      ((DeviceState.dev s').opsResult = (DeviceState.dev s).opsResult ∨
        (DeviceState.dev s').opsResult.tmod 100 ≠ opsCommSuccess)

/-- Open and clean succeed, and leave the driver in the state `s₂`. -/
def OpensAndCleans (ops : DriverOps σ) (uid idxStart idxEnd : ℤ) (s s₂ : σ) : Prop :=
  ∃ opsOpen opsClean s₁, ops.opsOpen = some opsOpen ∧ ops.opsClean = some opsClean ∧
    opsOpen s = some (0, s₁) ∧ opsClean uid idxStart idxEnd s₁ = some (0, s₂)

/-- The driver gets to its clean on the table `db`, which succeeds in the state `s₂`: its device
is attached, free and enabled, and open succeeds. -/
structure CleanedIn (d : ListedDriver σ) (db : EigenInfo) (s₂ : σ) : Prop where
  attached : ∃ dev ∈ req.devList, dev.driverId = d.dev.driverId
  free : req.isFree d.dev.driverId = true
  enabled : d.dev.enable = true
  cleaned : OpensAndCleans d.ops req.uid req.idxStart req.idxEnd (d.withDb db) s₂

/-- The driver deletes the features of its device. -/
def Cleaned (d : ListedDriver σ) (db : EigenInfo) : Prop := ∃ s₂, CleanedIn req d db s₂

/-- It does, and close succeeds too. -/
def CleanedAndClosed (d : ListedDriver σ) (db : EigenInfo) : Prop :=
  ∃ s₂, CleanedIn req d db s₂ ∧ ∃ opsClose s₃, d.ops.opsClose = some opsClose ∧
    opsClose s₂ = some ((), s₃) ∧ (DeviceState.dev s₃).opsResult = (DeviceState.dev s₂).opsResult

/-- The table without the features of the device. -/
def withoutOwn (d : ListedDriver σ) (db : EigenInfo) : EigenInfo :=
  db.delete (d.dev.query req.uid req.idxStart req.idxEnd).deletes

variable {req}

omit [DeviceState σ] in
/-- What open does decides whether the driver gets to its clean, and what clean does. -/
theorem opensAndCleans_iff {ops : DriverOps σ} {uid idxStart idxEnd ret : ℤ} {s s₁ s₂ : σ}
    {opsOpen : DriverFun σ ℤ} (hopsOpen : ops.opsOpen = some opsOpen)
    (hopen : opsOpen s = some (ret, s₁)) :
    OpensAndCleans ops uid idxStart idxEnd s s₂ ↔ ret = 0 ∧ ∃ opsClean,
      ops.opsClean = some opsClean ∧ opsClean uid idxStart idxEnd s₁ = some (0, s₂) := by
  constructor
  · rintro ⟨opsOpen', opsClean, s₁', hopsOpen', hopsClean, hopen', hclean⟩
    obtain rfl := Option.some.inj (hopsOpen.symm.trans hopsOpen')
    obtain ⟨rfl, rfl⟩ := Prod.mk.inj (Option.some.inj (hopen.symm.trans hopen'))
    exact ⟨rfl, opsClean, hopsClean, hclean⟩
  · rintro ⟨rfl, opsClean, hopsClean, hclean⟩
    exact ⟨opsOpen, opsClean, s₁, hopsOpen, hopsClean, hopen, hclean⟩

omit [DeviceState σ] in
theorem OpensAndCleans.unique {ops : DriverOps σ} {uid idxStart idxEnd : ℤ} {s s₂ s₂' : σ}
    (h : OpensAndCleans ops uid idxStart idxEnd s s₂)
    (h' : OpensAndCleans ops uid idxStart idxEnd s s₂') : s₂ = s₂' := by
  obtain ⟨opsOpen, opsClean, s₁, hopsOpen, hopsClean, hopen, hclean⟩ := h
  obtain ⟨-, opsClean', hopsClean', hclean'⟩ := (opensAndCleans_iff hopsOpen hopen).mp h'
  obtain rfl := Option.some.inj (hopsClean.symm.trans hopsClean')
  exact (Prod.mk.inj (Option.some.inj (hclean.symm.trans hclean'))).2

/-! ### One driver -/

theorem setUnsupportedOps_opsResult (dev : BioDev) :
    dev.setUnsupportedOps.opsResult.tmod 100 ≠ opsCommSuccess := by
  intro hcode
  have hdvd : (100 : ℤ) ∣ dev.devStatus.tdiv 100 * 100 + 2 := Int.dvd_of_tmod_eq_zero hcode
  omega

/-- What `bio_ops_clean` does on an enabled device. If open and clean succeed, the features of
the device are gone, and only close can turn that into an error. Otherwise nothing has changed,
and the result is an error. -/
theorem bioOpsClean_run {ops : DriverOps σ} (hops : CleansOwn ops) {uid idxStart idxEnd ret : ℤ}
    {s s' : σ} {calls calls' : List DriverOp} (henable : (DeviceState.dev s).enable = true)
    (h : ops.bioOpsClean uid idxStart idxEnd (s, calls) = some (ret, (s', calls'))) :
    (∃ s₂, OpensAndCleans ops uid idxStart idxEnd s s₂ ∧
        (∃ opsClose, ops.opsClose = some opsClose ∧ opsClose s₂ = some ((), s')) ∧
        (DeviceState.dev s₂).opsResult.tmod 100 = opsCommSuccess ∧
        ((DeviceState.dev s').opsResult = (DeviceState.dev s₂).opsResult ∨
          (DeviceState.dev s').opsResult.tmod 100 ≠ opsCommSuccess) ∧
        (DeviceState.store s').db =
          (DeviceState.store s).db.delete ((DeviceState.dev s).query uid idxStart idxEnd).deletes) ∨
      (∀ s₂, ¬ OpensAndCleans ops uid idxStart idxEnd s s₂) ∧
        (DeviceState.dev s').opsResult.tmod 100 ≠ opsCommSuccess ∧
        (DeviceState.store s').db = (DeviceState.store s).db := by
  obtain ⟨opsOpen, opsClose, r, s₁, s₂, hopsOpen, hopsClose, hopen, hclose, hrun⟩ :=
    bioOpsCall_run henable h
  obtain ⟨hsame, hdb₁, hopened⟩ := hops.opens opsOpen hopsOpen _ _ _ henable hopen
  have henable₁ : (DeviceState.dev s₁).enable = true := hsame.enable.trans henable
  -- an operation that has failed stays so when the device is closed
  have hfailed : (DeviceState.dev s₂).enable = true → (DeviceState.store s₂).db =
      (DeviceState.store s).db → (DeviceState.dev s₂).opsResult.tmod 100 ≠ opsCommSuccess →
      (DeviceState.dev s').opsResult.tmod 100 ≠ opsCommSuccess ∧
        (DeviceState.store s').db = (DeviceState.store s).db := by
    intro henable₂ hdb₂ hcode
    obtain ⟨hdb', hsame' | hcode'⟩ := hops.closes opsClose hopsClose _ _ henable₂ hclose
    · exact ⟨hsame' ▸ hcode, hdb'.trans hdb₂⟩
    · exact ⟨hcode', hdb'.trans hdb₂⟩
  obtain ⟨rfl, f, hf, hclean⟩ | ⟨-, hnone, rfl⟩ | ⟨hr, rfl⟩ := hrun
  · -- open succeeds, so the driver is asked to clean
    obtain ⟨opsClean, hopsClean, rfl⟩ := Option.map_eq_some_iff.mp hf
    obtain ⟨hsame₂, hcleans⟩ := hops.cleans opsClean hopsClean _ _ _ _ _ _ henable₁ hclean
    have henable₂ : (DeviceState.dev s₂).enable = true := hsame₂.enable.trans henable₁
    obtain ⟨rfl, hdb₂, hcode₂⟩ | ⟨hret, hdb₂, hcode₂⟩ := hcleans
    · -- the features are gone
      obtain ⟨hdb', hresult⟩ := hops.closes opsClose hopsClose _ _ henable₂ hclose
      have hquery : (DeviceState.dev s₁).query uid idxStart idxEnd =
          (DeviceState.dev s).query uid idxStart idxEnd := by
        rw [BioDev.query, BioDev.query, hsame.biotype, hsame.deviceName]
      refine .inl ⟨s₂, ?_, ⟨opsClose, hopsClose, hclose⟩, hcode₂, hresult, ?_⟩
      · exact (opensAndCleans_iff hopsOpen hopen).mpr ⟨rfl, opsClean, hopsClean, hclean⟩
      · rw [hdb', hdb₂, hdb₁, hquery]
    · -- the clean has failed, and a second run of it would fail as well
      refine .inr ⟨fun s₂' hdone => ?_, hfailed henable₂ (hdb₂.trans hdb₁) hcode₂⟩
      obtain ⟨-, opsClean', hopsClean', hclean'⟩ := (opensAndCleans_iff hopsOpen hopen).mp hdone
      obtain rfl := Option.some.inj (hopsClean.symm.trans hopsClean')
      exact hret (Prod.mk.inj (Option.some.inj (hclean.symm.trans hclean'))).1
  · -- the driver has no function for it
    refine .inr ⟨fun s₂' hdone => ?_, hfailed ?_ ?_ ?_⟩
    · obtain ⟨-, opsClean, hopsClean, -⟩ := (opensAndCleans_iff hopsOpen hopen).mp hdone
      rw [hopsClean] at hnone
      cases hnone
    · rw [DeviceState.dev_setDev]
      exact henable₁
    · rw [DeviceState.store_setDev, hdb₁]
    · rw [DeviceState.dev_setDev]
      exact setUnsupportedOps_opsResult _
  · -- open fails, and the driver is not asked
    refine .inr ⟨fun s₂' hdone => ?_, hfailed henable₁ hdb₁ (hopened hr)⟩
    exact hr ((opensAndCleans_iff hopsOpen hopen).mp hdone).1

theorem ListedDriver.dev_withDb (d : ListedDriver σ) (db : EigenInfo) :
    DeviceState.dev (d.withDb db) = d.dev := DeviceState.dev_setStore _ _

theorem ListedDriver.store_withDb (d : ListedDriver σ) (db : EigenInfo) :
    (DeviceState.store (d.withDb db)).db = db := by
  rw [ListedDriver.withDb, DeviceState.store_setStore]

/-- **One driver.** It returns a success exactly if it has cleaned and closed its device, and it
has deleted the features of the device if it has cleaned it. -/
theorem CleanRequest.cleanBySingleDev_run {d : ListedDriver σ} (hd : CleansOwn d.ops)
    {db db' : EigenInfo} {ret : ℤ} (h : req.cleanBySingleDev d db = some (ret, db')) :
    (ret = 0 ↔ CleanedAndClosed req d db) ∧
      (Cleaned req d db ∧ db' = withoutOwn req d db ∨ ¬ Cleaned req d db ∧ db' = db) := by
  -- where the driver is not cleaned, it must report an error and leave the table alone
  have hnot : (∀ s₂, ¬ CleanedIn req d db s₂) → ret ≠ 0 → db' = db →
      (ret = 0 ↔ CleanedAndClosed req d db) ∧
        (Cleaned req d db ∧ db' = withoutOwn req d db ∨ ¬ Cleaned req d db ∧ db' = db) := by
    intro hkept hret hdb
    refine ⟨iff_of_false hret ?_, .inr ⟨fun hcleaned => ?_, hdb⟩⟩
    · rintro ⟨s₂, hcleaned, -⟩
      exact hkept s₂ hcleaned
    · obtain ⟨s₂, hcleaned⟩ := hcleaned
      exact hkept s₂ hcleaned
  rw [CleanRequest.cleanBySingleDev] at h
  split at h
  next hdetached =>
    -- no device of the driver is attached
    obtain ⟨rfl, rfl⟩ := Prod.mk.inj (Option.some.inj h)
    refine hnot (fun s₂ hcleaned => ?_) (by decide) rfl
    obtain ⟨dev, hdev, hid⟩ := hcleaned.attached
    exact List.find?_eq_none.mp hdetached dev hdev (decide_eq_true hid)
  next hattached =>
  split at h
  next hbusy =>
    -- another request has the device
    obtain ⟨rfl, rfl⟩ := Prod.mk.inj (Option.some.inj h)
    refine hnot (fun s₂ hcleaned => ?_) (by decide) rfl
    rw [hcleaned.free] at hbusy
    cases hbusy
  next hfree =>
  obtain ⟨⟨a, s', calls'⟩, hrun, h⟩ := Option.bind_eq_some_iff.mp h
  obtain ⟨hcode, rfl⟩ := Prod.mk.inj (Option.some.inj h)
  have hret : ret = 0 ↔ (DeviceState.dev s').opsResult.tmod 100 = opsCommSuccess := by
    rw [← hcode]
    exact Request.commonCode_eq_success
  -- a disabled device is not opened
  cases henable : d.dev.enable with
  | false =>
    have hdisabled : (DeviceState.dev (d.withDb db)).enable = false := by
      rw [d.dev_withDb, henable]
    rw [DriverOps.bioOpsClean, bioOpsCall_disabled hdisabled] at hrun
    obtain ⟨-, hs⟩ := Prod.mk.inj (Option.some.inj hrun)
    obtain ⟨rfl, -⟩ := Prod.mk.inj hs
    refine hnot (fun s₂ hcleaned => ?_) ?_ ?_
    · rw [hcleaned.enabled] at henable
      cases henable
    · rw [Ne, hret, guardedState, DeviceState.dev_setDev, setCommDisable_opsResult]
      decide
    · rw [guardedState, DeviceState.store_setDev, d.store_withDb]
  | true =>
    have hclean := bioOpsClean_run hd (by rw [d.dev_withDb, henable]) hrun
    rw [d.store_withDb, d.dev_withDb] at hclean
    obtain ⟨s₂, hdone, ⟨opsClose, hopsClose, hclose⟩, hcode₂, hresult, hdb'⟩ |
      ⟨hfailed, hcode', hdb'⟩ := hclean
    · -- it was attached, free and enabled, and open and clean have succeeded
      have hcleaned : CleanedIn req d db s₂ := by
        obtain ⟨dev, hfind⟩ := Option.ne_none_iff_exists'.mp hattached
        exact ⟨⟨dev, List.mem_of_find?_eq_some hfind, by simpa using List.find?_some hfind⟩,
          by simpa using hfree, henable, hdone⟩
      -- the reply is a success exactly if close has not changed the result
      refine ⟨hret.trans ⟨fun hsuccess => ?_, ?_⟩, .inl ⟨⟨s₂, hcleaned⟩, hdb'⟩⟩
      · have hsame := hresult.resolve_right (not_not.mpr hsuccess)
        exact ⟨s₂, hcleaned, opsClose, s', hopsClose, hclose, hsame⟩
      · -- close is the function it was, in the state it was called in
        rintro ⟨s₂', hcleaned', opsClose', s₃, hopsClose', hclose', hsame⟩
        obtain rfl := hdone.unique hcleaned'.cleaned
        obtain rfl := Option.some.inj (hopsClose.symm.trans hopsClose')
        obtain ⟨-, rfl⟩ := Prod.mk.inj (Option.some.inj (hclose.symm.trans hclose'))
        rw [hsame, hcode₂]
    · -- open or clean has failed
      exact hnot (fun s₂ hcleaned => hfailed s₂ hcleaned.cleaned) (hret.not.mpr hcode') hdb'

/-! ### The loop -/

variable (req) in
/-- All drivers clean and close, each on the table that those before it leave. -/
def AllCleaned : List (ListedDriver σ) → EigenInfo → Prop
  | [], _ => True
  | d :: drivers, db => CleanedAndClosed req d db ∧ AllCleaned drivers (withoutOwn req d db)

variable (req) in
/-- What the drivers leave of the table. -/
inductive Remains : List (ListedDriver σ) → EigenInfo → EigenInfo → Prop
  | nil (db : EigenInfo) : Remains [] db db
  | cleaned {d : ListedDriver σ} {drivers : List (ListedDriver σ)} {db db' : EigenInfo}
      (h : Cleaned req d db) (hrest : Remains drivers (withoutOwn req d db) db') :
      Remains (d :: drivers) db db'
  | kept {d : ListedDriver σ} {drivers : List (ListedDriver σ)} {db db' : EigenInfo}
      (h : ¬ Cleaned req d db) (hrest : Remains drivers db db') : Remains (d :: drivers) db db'

theorem Remains.unique {drivers : List (ListedDriver σ)} {db db₁ db₂ : EigenInfo}
    (h₁ : Remains req drivers db db₁) (h₂ : Remains req drivers db db₂) : db₁ = db₂ := by
  induction h₁ with
  | nil db =>
    cases h₂
    rfl
  | cleaned h _ ih =>
    cases h₂ with
    | cleaned _ hrest => exact ih hrest
    | kept h' _ => exact absurd h h'
  | kept h _ ih =>
    cases h₂ with
    | cleaned h' _ => exact absurd h' h
    | kept _ hrest => exact ih hrest

/-- **The loop.** No error is left exactly if there was none before and all drivers clean and
close. -/
theorem CleanRequest.cleanDrivers_run {drivers : List (ListedDriver σ)}
    (hdrivers : ∀ d ∈ drivers, CleansOwn d.ops) {ret ret' : ℤ} {db db' : EigenInfo}
    (h : req.cleanDrivers drivers ret db = some (ret', db')) :
    (ret' = 0 ↔ ret = 0 ∧ AllCleaned req drivers db) ∧ Remains req drivers db db' := by
  -- by induction on the drivers, with the result and the table that the ones before have left
  induction drivers generalizing ret db with
  | nil =>
    obtain ⟨rfl, rfl⟩ := Prod.mk.inj (Option.some.inj h)
    exact ⟨(and_iff_left trivial).symm, .nil db⟩
  | cons d drivers ih =>
    obtain ⟨⟨singleRet, db₁⟩, hsingle, hrest⟩ := Option.bind_eq_some_iff.mp h
    obtain ⟨hcode, htable⟩ :=
      CleanRequest.cleanBySingleDev_run (hdrivers d List.mem_cons_self) hsingle
    obtain ⟨hloop, hremains⟩ := ih (fun d' hd' => hdrivers d' (List.mem_cons_of_mem d hd')) hrest
    -- the first error is the one that stays
    have hboth : (if ret = 0 then singleRet else ret) = 0 ↔ ret = 0 ∧ singleRet = 0 := by
      split
      next hret => exact (and_iff_right hret).symm
      next hret => exact iff_of_false hret fun h' => hret h'.1
    constructor
    · rw [hloop, hboth, hcode, and_assoc]
      refine and_congr_right fun _ => and_congr_right fun hclosed => ?_
      -- a driver that has closed has cleaned before
      obtain ⟨s₂, hcleaned, -⟩ := hclosed
      cases htable with
      | inl hdone => rw [hdone.2]
      | inr hkept => exact absurd ⟨s₂, hcleaned⟩ hkept.1
    · -- what remains of the table goes on to the other drivers
      cases htable with
      | inl hdone =>
        rw [hdone.2] at hremains
        exact .cleaned hdone.1 hremains
      | inr hkept =>
        rw [hkept.2] at hremains
        exact .kept hkept.1 hremains

/-! ### The reply -/

variable (req) in
/-- A feature of the requested user, with an index of the range. -/
def InCleanRange (r : EigenRow) : Prop :=
  (req.uid = -1 ∨ r.uid = req.uid) ∧ req.idxStart ≤ r.eigenIndex ∧
    (req.idxEnd = -1 ∨ r.eigenIndex ≤ req.idxEnd)

instance decidableInCleanRange (r : EigenRow) : Decidable (InCleanRange req r) :=
  inferInstanceAs (Decidable (_ ∧ _ ∧ _))

variable (req) in
/-- What is asked of the reply `reply`: it is a success exactly if no feature of the range is
left in the table. -/
def CleanReports (reply : ℤ) (db' : EigenInfo) : Prop :=
  reply = -retOpsSuccess ↔ ∀ r ∈ db'.rows, ¬ InCleanRange req r

theorem deletes_query_iff {r : EigenRow} : req.query.deletes r = true ↔ InCleanRange req r := by
  have hdriver : req.query.driver ≠ some "" := (Option.some_ne_none "").symm
  rw [FeatureQuery.deletes_of_ne hdriver, FeatureQuery.selects_iff]
  constructor
  · rintro ⟨hstart, huid, -, -, hend⟩
    exact ⟨huid, hstart, hend⟩
  · rintro ⟨huid, hstart, hend⟩
    refine ⟨hstart, huid, .inl rfl, fun d hd => ?_, hend⟩
    cases hd

/-- **The reply of a Clean of all drivers.** If the system-level `DELETE` succeeds, the reply says
whether the features of the range are gone exactly if every driver of the list has cleaned and
closed its device. If it fails, exactly if the drivers have left a feature of the range. -/
theorem cleanAll_reports_iff (req : CleanRequest) (drivers : List (ListedDriver σ))
    (hdrivers : ∀ d ∈ drivers, CleansOwn d.ops) (outcomes : List Bool) {db db' : EigenInfo}
    {reply : ℤ} (h : req.cleanAll drivers outcomes db = some (reply, db')) :
    CleanReports req reply db' ↔
      if (nextStatement outcomes).1 = true then AllCleaned req drivers db
      else ∃ db₁, Remains req drivers db db₁ ∧ ∃ r ∈ db₁.rows, InCleanRange req r := by
  obtain ⟨⟨ret, db₁⟩, hloop, h⟩ := Option.bind_eq_some_iff.mp h
  obtain ⟨hret, hremains⟩ := CleanRequest.cleanDrivers_run hdrivers hloop
  rw [and_iff_right rfl] at hret
  simp only [bioStoCleanFeatureInfo_eq] at h
  split
  next hsystem =>
    -- the last `DELETE` has left nothing, and the drivers decide the reply
    rw [if_pos hsystem] at h
    obtain ⟨rfl, rfl⟩ := Prod.mk.inj (Option.some.inj h)
    have hgone : ∀ r ∈ (db₁.delete req.query.deletes).rows, ¬ InCleanRange req r := by
      intro r hr hrange
      have hkept : req.query.deletes r = false := by
        simpa using (List.mem_filter.mp hr).2
      rw [deletes_query_iff.mpr hrange] at hkept
      cases hkept
    rw [← hret, CleanReports, iff_true_right hgone, if_pos rfl]
    by_cases hzero : ret = 0
    · rw [if_neg (not_not.mpr hzero)]
      rfl
    · rw [if_pos hzero]
      exact iff_of_false (by decide) hzero
  next hsystem =>
    -- the last `DELETE` has failed: the reply is an error, and what the drivers have left is there
    rw [if_neg hsystem] at h
    obtain ⟨rfl, rfl⟩ := Prod.mk.inj (Option.some.inj h)
    rw [CleanReports, if_neg (show (-2 : ℤ) ≠ 0 by decide),
      iff_false_left (show -retOpsError ≠ -retOpsSuccess by decide)]
    push Not
    constructor
    · rintro ⟨r, hr, hrange⟩
      exact ⟨db₁, hremains, r, hr, hrange⟩
    · rintro ⟨db₂, hremains₂, r, hr, hrange⟩
      obtain rfl := hremains.unique hremains₂
      exact ⟨r, hr, hrange⟩

/-! ### The handler among the others -/

/-- The reply of one driver, as in `Encounter.cleanBySingleDev`, for what the operation leaves in
`ops_result`. -/
theorem CleanRequest.cleanBySingleDev_reply {d : ListedDriver σ} {db db' : EigenInfo} {ret : ℤ}
    (h : req.cleanBySingleDev d db = some (ret, db')) :
    ∃ opsResult, ∀ e : Encounter, e.devList = req.devList → e.isFree = req.isFree →
      (e.outcome d.dev.driverId).opsResult = opsResult →
        (e.cleanBySingleDev (some d.dev)).2 = ret := by
  -- the device is looked up in the same list
  have hfind : ∀ e : Encounter, e.devList = req.devList → e.getDevByDrvid d.dev.driverId =
      req.devList.find? fun dev => dev.driverId = d.dev.driverId := by
    intro e hdevs
    rw [Encounter.getDevByDrvid, hdevs]
  rw [CleanRequest.cleanBySingleDev] at h
  split at h
  next hdetached =>
    -- a device that is gone: nothing is done, and nothing has been left
    obtain ⟨rfl, -⟩ := Prod.mk.inj (Option.some.inj h)
    refine ⟨0, fun e hdevs _ _ => ?_⟩
    rw [Encounter.cleanBySingleDev, hfind e hdevs, if_pos hdetached]
  next hattached =>
  split at h
  next hbusy =>
    -- a device that is busy: the lock is not taken
    obtain ⟨rfl, -⟩ := Prod.mk.inj (Option.some.inj h)
    refine ⟨0, fun e hdevs hfree _ => ?_⟩
    rw [Encounter.cleanBySingleDev, hfind e hdevs, hfree, if_neg hattached, if_pos hbusy]
  next hbusy =>
  -- the driver's clean runs, and leaves its result
  obtain ⟨⟨a, s', calls'⟩, -, h⟩ := Option.bind_eq_some_iff.mp h
  obtain ⟨rfl, -⟩ := Prod.mk.inj (Option.some.inj h)
  refine ⟨(DeviceState.dev s').opsResult, fun e hdevs hfree hresult => ?_⟩
  rw [Encounter.cleanBySingleDev, hfind e hdevs, hfree, if_neg hattached, if_neg hbusy, hresult]

theorem CleanRequest.cleanDrivers_reply {drivers : List (ListedDriver σ)}
    (hids : (drivers.map fun d => d.dev.driverId).Nodup) {ret ret' : ℤ} {db db' : EigenInfo}
    (h : req.cleanDrivers drivers ret db = some (ret', db')) :
    ∃ opsResults : ℤ → ℤ, ∀ e : Encounter, e.devList = req.devList → e.isFree = req.isFree →
      (∀ d ∈ drivers, (e.outcome d.dev.driverId).opsResult = opsResults d.dev.driverId) →
        (e.cleanDrivers (drivers.map ListedDriver.dev) ret).2 = ret' := by
  induction drivers generalizing ret db with
  | nil =>
    obtain ⟨rfl, -⟩ := Prod.mk.inj (Option.some.inj h)
    exact ⟨fun _ => 0, fun e _ _ _ => rfl⟩
  | cons d drivers ih =>
    rw [List.map_cons, List.nodup_cons] at hids
    obtain ⟨⟨singleRet, db₁⟩, hsingle, hrest⟩ := Option.bind_eq_some_iff.mp h
    obtain ⟨opsResult, hreply⟩ := CleanRequest.cleanBySingleDev_reply hsingle
    obtain ⟨opsResults, hreplies⟩ := ih hids.2 hrest
    -- the result of the first driver is added to those of the others
    refine ⟨Function.update opsResults d.dev.driverId opsResult, fun e hdevs hfree hall => ?_⟩
    have hfirst : (e.outcome d.dev.driverId).opsResult = opsResult := by
      rw [hall d List.mem_cons_self, Function.update_self]
    have hothers : ∀ d' ∈ drivers,
        (e.outcome d'.dev.driverId).opsResult = opsResults d'.dev.driverId := by
      intro d' hd'
      rw [hall d' (List.mem_cons_of_mem d hd')]
      -- no other driver has the id of the first
      refine Function.update_of_ne (fun hid => hids.1 ?_) _ _
      rw [← hid]
      exact List.mem_map_of_mem hd'
    show (e.cleanDrivers (drivers.map ListedDriver.dev)
      (if ret = 0 then (e.cleanBySingleDev (some d.dev)).2 else ret)).2 = ret'
    rw [hreply e hdevs hfree hfirst]
    exact hreplies e hdevs hfree hothers

variable (req) in
/-- What the handler meets when the operations leave `opsResults` on the devices. -/
def CleanRequest.encounter (drvList : List BioDev) (opsResults : ℤ → ℤ) (systemClean : ℤ) :
    Encounter where
  drvList := drvList
  devList := req.devList
  authRet := true
  isFree := req.isFree
  outcome := fun i => ⟨.ret 0, opsResults i, []⟩
  systemClean := systemClean
  stopOps := 0
  stopChanges := []

/-- The reply is that of `Encounter.clean`, which knows nothing of the table. -/
theorem CleanRequest.cleanAll_reply {drivers : List (ListedDriver σ)}
    (hids : (drivers.map fun d => d.dev.driverId).Nodup) {outcomes : List Bool}
    {db db' : EigenInfo} {reply : ℤ}
    (h : req.cleanAll drivers outcomes db = some (reply, db')) :
    ∃ opsResults systemClean,
      ((req.encounter (drivers.map ListedDriver.dev) opsResults systemClean).clean (-1)).2 =
        reply := by
  -- the loop over the drivers comes first, then the rows of all of them
  obtain ⟨⟨ret, db₁⟩, hloop, h⟩ := Option.bind_eq_some_iff.mp h
  obtain ⟨opsResults, hreplies⟩ := CleanRequest.cleanDrivers_reply hids hloop
  cases hclean : bioStoCleanFeatureInfo ⟨db₁, outcomes⟩ req.query with
  | mk singleRet c =>
  simp only [hclean, Option.some.injEq, Prod.mk.injEq] at h
  refine ⟨opsResults, singleRet, ?_⟩
  -- both parts of the reply are the same
  have hret := hreplies (req.encounter (drivers.map ListedDriver.dev) opsResults singleRet) rfl rfl
    fun _ _ => rfl
  rw [Encounter.clean, if_neg (not_not.mpr rfl)]
  show (if singleRet = 0 then
    if (Encounter.cleanDrivers _ (drivers.map ListedDriver.dev) 0).2 ≠ 0 then -retOpsError
      else (Encounter.cleanDrivers _ (drivers.map ListedDriver.dev) 0).2
    else -retOpsError) = reply
  rw [hret]
  exact h.1

end CleanAll

/-! ### The community driver -/

theorem SameConfig.sameDevice {π : Type} {s s' : DriverRun π} (h : SameConfig s.1 s'.1) :
    SameDevice s s' := ⟨h.enable, h.biotype, h.deviceName⟩

/-- The community driver does what is asked of a driver. -/
theorem cleansOwn_uru4000Ops {π : Type} (fp : Libfprint π) : CleansOwn (uru4000Ops fp) where
  opens := by
    rintro _ ⟨⟩ s ret s' henable h
    obtain ⟨hconfig, hstore, -, hret⟩ := communityOpsOpen_spec henable (driverFun_eq_some.mp h)
    -- an open that fails says so in the result
    refine ⟨hconfig.sameDevice, congrArg Store.db hstore, fun hne => ?_⟩
    obtain ⟨hzero, -⟩ | ⟨-, hcode⟩ := hret
    · exact absurd hzero hne
    · show s'.1.dev.opsResult.tmod 100 ≠ opsCommSuccess
      rw [hcode]
      decide
  -- a clean that fails does the same
  cleans := by
    rintro _ ⟨⟩ uid idxStart idxEnd s ret s' henable h
    have hrun := driverFun_eq_some.mp h
    obtain ⟨hconfig, hcleans⟩ := communityOpsClean_spec henable hrun
    refine ⟨hconfig.sameDevice, hcleans.imp ?_ ?_⟩
    · rintro ⟨hret, hdb, hcode⟩
      refine ⟨hret, hdb, ?_⟩
      show s'.1.dev.opsResult.tmod 100 = opsCommSuccess
      rw [hcode]
      decide
    · rintro ⟨hret, hdb, hcode⟩
      refine ⟨by rw [hret]; decide, hdb, ?_⟩
      show s'.1.dev.opsResult.tmod 100 ≠ opsCommSuccess
      rw [hcode]
      decide
  -- and so does a close, which never touches the table
  closes := by
    rintro _ ⟨⟩ s s' henable h
    obtain ⟨-, hstore, -, hcode⟩ := communityOpsClose_spec henable (driverFun_eq_some.mp h)
    refine ⟨congrArg Store.db hstore, hcode.imp_right fun hfail => ?_⟩
    show s'.1.dev.opsResult.tmod 100 ≠ opsCommSuccess
    rw [hfail]
    decide

/-! ### A driver whose device is away -/

/-- A driver that keeps its features in the database and needs no device to clean them. -/
def storeOps : DriverOps PlainState :=
  { noDriverOps PlainState with
    opsOpen := some fun s => some (0, s)
    opsClose := some fun s => some ((), s)
    opsClean := some fun uid idxStart idxEnd s =>
      let (ret, c) := bioStoCleanFeatureInfo s.store (s.dev.query uid idxStart idxEnd)
      let opsResult := if ret = 0 then opsCleanSuccess else opsCleanFail
      some (ret, { s with dev := s.dev.setOpsAbsResult opsResult, store := c }) }

theorem cleansOwn_storeOps : CleansOwn storeOps where
  opens := by
    rintro _ ⟨⟩ s ret s' - ⟨⟩
    exact ⟨⟨rfl, rfl, rfl⟩, rfl, fun h => absurd rfl h⟩
  cleans := by
    rintro _ ⟨⟩ uid idxStart idxEnd s ret s' - h
    have hcases := bioStoCleanFeatureInfo_cases s.store (s.dev.query uid idxStart idxEnd)
    cases hclean : bioStoCleanFeatureInfo s.store (s.dev.query uid idxStart idxEnd) with
    | mk code store =>
    simp only [hclean] at h hcases
    obtain ⟨rfl, rfl⟩ := Prod.mk.inj (Option.some.inj h)
    refine ⟨⟨rfl, rfl, rfl⟩, ?_⟩
    obtain ⟨rfl, hdb⟩ | ⟨rfl, hdb⟩ := hcases
    · exact .inr ⟨by decide, hdb, by show opsCleanFail.tmod 100 ≠ opsCommSuccess; decide⟩
    · exact .inl ⟨rfl, hdb, by show opsCleanSuccess.tmod 100 = opsCommSuccess; decide⟩
  closes := by
    rintro _ ⟨⟩ s s' - ⟨⟩
    exact ⟨rfl, .inl rfl⟩

/-- The driver of a reader. -/
def storeDriver : ListedDriver PlainState where
  ops := storeOps
  state := ⟨idleReader, ⟨EigenInfo.empty, []⟩, fun _ => "u"⟩

/-- All features of a user. -/
def cleanUser (devList : List BioDev) : CleanRequest where
  devList := devList
  isFree := fun _ => true
  uid := 1000
  idxStart := 0
  idxEnd := -1

/-- A table with one feature. -/
def oneFeature : EigenInfo := EigenInfo.empty.insert 1000 "u" 0 "uru4000" 0 "a" 1 [80]

/-- The reader is not attached. Nothing is left, and the reply is an error. -/
theorem not_cleanAll_reports : ¬ ∀ (req : CleanRequest) (drivers : List (ListedDriver PlainState)),
    (∀ d ∈ drivers, CleansOwn d.ops) → ∀ outcomes db db' reply,
      req.cleanAll drivers outcomes db = some (reply, db') → CleanReports req reply db' := by
  intro h
  have hdrivers : ∀ d ∈ [storeDriver], CleansOwn d.ops :=
    List.forall_mem_singleton.mpr cleansOwn_storeOps
  have hreports := h (cleanUser []) [storeDriver] hdrivers [] oneFeature _ _ rfl
  have hsuccess : (-retOpsError : ℤ) = -retOpsSuccess := hreports.mpr (by decide)
  exact absurd hsuccess (by decide)

/-- It is attached. -/
theorem cleanAll_reports_attached : ∃ db',
    (cleanUser [idleReader]).cleanAll [storeDriver] [] oneFeature =
      some (-retOpsSuccess, db') ∧
      CleanReports (cleanUser [idleReader]) (-retOpsSuccess) db' := by
  have hdrivers : ∀ d ∈ [storeDriver], CleansOwn d.ops :=
    List.forall_mem_singleton.mpr cleansOwn_storeOps
  obtain ⟨db', hrun⟩ : ∃ db', (cleanUser [idleReader]).cleanAll [storeDriver] [] oneFeature =
      some (-retOpsSuccess, db') := ⟨_, rfl⟩
  refine ⟨db', hrun, (cleanAll_reports_iff _ _ hdrivers _ hrun).mpr ?_⟩
  have hattached : ∃ dev ∈ [idleReader], dev.driverId = storeDriver.dev.driverId :=
    ⟨idleReader, List.mem_singleton_self _, rfl⟩
  rw [if_pos (show (nextStatement []).1 = true from rfl)]
  exact ⟨⟨_, ⟨hattached, rfl, rfl, _, _, _, rfl, rfl, rfl, rfl⟩, _, _, rfl, rfl, rfl⟩, trivial⟩

end BiometricAuth
