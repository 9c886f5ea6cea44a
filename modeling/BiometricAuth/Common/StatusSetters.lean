import BiometricAuth.Common.BioDev
import BiometricAuth.Common.CInt

/-!
# The relative status setters

`biometric_common.h` describes `bio_set_dev_status`, `bio_set_ops_result`, `bio_set_notify_mid` and
`bio_set_all_status` as relative: they put the type of the current device status in front of the
code they are given. `bio_set_dev_status` stores the code as it is, like `bio_set_dev_abs_status`,
so the setters called after it use the type of its code.

The setters compute in `int`; `none` is an overflow, which only a status of the last hundred
numbers can lead to.

Main result: `keepsOperation_iff` — when the setters do what they are described to do.
-/

namespace BiometricAuth

/-- `DEVS_COMM_STOP_BY_USER`. -/
@[simp] def devsCommStopByUser : ℤ := opsTypeComm * 100 + 2

/-- A code that can be passed to a setter. -/
def IsCode (code : ℤ) : Prop := 0 ≤ code ∧ code < 2 ^ 31

instance decidableIsCode (code : ℤ) : Decidable (IsCode code) :=
  inferInstanceAs (Decidable (_ ∧ _))

/-! ### The setters, in `int` -/

/-- `ops * 100 + code % 100`, where `ops` is `dev_status / 100`. -/
def composeCode (devStatus code : ℤ) : Option ℤ := do
  let ops ← cInt (devStatus.tdiv 100 * 100)
  cInt (ops + code.tmod 100)

namespace BioDev

/-- `bio_set_dev_status`. -/
def bioSetDevStatus (dev : BioDev) (status : ℤ) : Option BioDev := some (dev.setDevStatus status)

/-- `bio_set_ops_result`. -/
def bioSetOpsResult (dev : BioDev) (result : ℤ) : Option BioDev :=
  (composeCode dev.devStatus result).map fun result => { dev with opsResult := result }

/-- `bio_set_notify_mid`. -/
def bioSetNotifyMid (dev : BioDev) (mid : ℤ) : Option BioDev :=
  (composeCode dev.devStatus mid).map fun mid => { dev with notifyMid := mid }

/-- `bio_set_all_status`, which reads the status once. -/
def bioSetAllStatus (dev : BioDev) (devStatus opsResult notifyMid : ℤ) : Option BioDev := do
  let devStatus ← composeCode dev.devStatus devStatus
  let opsResult ← composeCode dev.devStatus opsResult
  let notifyMid ← composeCode dev.devStatus notifyMid
  some (dev.setAllAbsStatus devStatus opsResult notifyMid)

/-- The three setters one after the other. -/
def bioSetEachStatus (dev : BioDev) (devStatus opsResult notifyMid : ℤ) : Option BioDev := do
  let dev ← dev.bioSetDevStatus devStatus
  let dev ← dev.bioSetOpsResult opsResult
  dev.bioSetNotifyMid notifyMid

end BioDev

/-! ### What they are described to do -/

/-- The code `code` for the operation that `devStatus` is of. -/
def relativeCode (devStatus code : ℤ) : ℤ := devStatus / 100 * 100 + code % 100

/-- The setters set the relative codes, and the one that sets them all ends where the others do
one after the other. -/
structure KeepsOperation (dev : BioDev) (s r m : ℤ) : Prop where
  devStatus : dev.bioSetDevStatus s = some { dev with devStatus := relativeCode dev.devStatus s }
  opsResult : dev.bioSetOpsResult r = some { dev with opsResult := relativeCode dev.devStatus r }
  notifyMid : dev.bioSetNotifyMid m = some { dev with notifyMid := relativeCode dev.devStatus m }
  all : dev.bioSetAllStatus s r m = some (dev.setAllAbsStatus (relativeCode dev.devStatus s)
    (relativeCode dev.devStatus r) (relativeCode dev.devStatus m))
  each : dev.bioSetAllStatus s r m = dev.bioSetEachStatus s r m

/-! ### When they do -/

/-- For codes that are not negative C divides as the description does. -/
theorem composeCode_eq {devStatus code : ℤ} (hstatus : IsCode devStatus) (hcode : IsCode code) :
    composeCode devStatus code = cInt (relativeCode devStatus code) := by
  obtain ⟨hzero, hupper⟩ := hstatus
  have hops : cInt (devStatus.tdiv 100 * 100) = some (devStatus / 100 * 100) := by
    rw [Int.tdiv_eq_ediv_of_nonneg hzero]
    exact cInt_eq_some ⟨by omega, by omega⟩
  rw [composeCode, hops, Int.tmod_eq_emod_of_nonneg hcode.1]
  rfl

/-- A relative code is as large as the status, but for the last two digits. -/
theorem isCInt_relativeCode {devStatus code : ℤ} (hstatus : IsCode devStatus) :
    IsCInt (relativeCode devStatus code) ↔ relativeCode devStatus code < 2 ^ 31 := by
  have hzero : 0 ≤ relativeCode devStatus code := by
    have := hstatus.1
    unfold relativeCode
    omega
  exact and_iff_right (by omega)

/-- A setter computes the relative code exactly if that is an `int`. -/
theorem composeCode_eq_some_iff {devStatus code : ℤ} (hstatus : IsCode devStatus)
    (hcode : IsCode code) :
    composeCode devStatus code = some (relativeCode devStatus code) ↔
      relativeCode devStatus code < 2 ^ 31 := by
  rw [composeCode_eq hstatus hcode, ← isCInt_relativeCode hstatus]
  exact ⟨fun h => (eq_of_cInt h).2, cInt_eq_some⟩

/-- The code is what it was exactly if it is of the type of the status. -/
theorem relativeCode_eq_self_iff {devStatus code : ℤ} :
    relativeCode devStatus code = code ↔ code / 100 = devStatus / 100 := by
  unfold relativeCode
  omega

/-- Only the type of the status matters. -/
theorem relativeCode_congr {devStatus devStatus' : ℤ} (h : devStatus / 100 = devStatus' / 100)
    (code : ℤ) : relativeCode devStatus code = relativeCode devStatus' code := by
  rw [relativeCode, relativeCode, h]

/-- Where nothing overflows the setters are those of `BioDev`. -/
theorem bioSetEachStatus_eq {dev : BioDev} {s r m : ℤ} (hs : IsCode s) (hr : IsCode r)
    (hm : IsCode m) (hrange : relativeCode s r < 2 ^ 31) (hmrange : relativeCode s m < 2 ^ 31) :
    dev.bioSetEachStatus s r m =
      some (((dev.setDevStatus s).setOpsResult r).setNotifyMid m) := by
  have hcompose : ∀ code, IsCode code → relativeCode s code < 2 ^ 31 →
      composeCode s code = some (s.tdiv 100 * 100 + code.tmod 100) := by
    intro code hcode hrange
    rw [(composeCode_eq_some_iff hs hcode).mpr hrange, relativeCode,
      Int.tdiv_eq_ediv_of_nonneg hs.1, Int.tmod_eq_emod_of_nonneg hcode.1]
  simp only [BioDev.bioSetEachStatus, BioDev.bioSetDevStatus, BioDev.bioSetOpsResult,
    BioDev.bioSetNotifyMid, BioDev.setDevStatus, Option.bind_eq_bind, Option.bind_some,
    hcompose r hr hrange, hcompose m hm hmrange, Option.map_some]
  rfl

/-- **The relative setters.** They keep the operation of the device status exactly if the new
status is one of that operation, and the composed result and message are numbers of an `int`. -/
theorem keepsOperation_iff (dev : BioDev) (s r m : ℤ) (hstatus : IsCode dev.devStatus)
    (hs : IsCode s) (hr : IsCode r) (hm : IsCode m) :
    KeepsOperation dev s r m ↔ s / 100 = dev.devStatus / 100 ∧
      relativeCode dev.devStatus r < 2 ^ 31 ∧ relativeCode dev.devStatus m < 2 ^ 31 := by
  constructor
  · intro h
    refine ⟨?_, ?_, ?_⟩
    · have hself := congrArg BioDev.devStatus (Option.some.inj h.devStatus)
      exact relativeCode_eq_self_iff.mp hself.symm
    · obtain ⟨code, hcode, hdev⟩ := Option.map_eq_some_iff.mp h.opsResult
      obtain rfl : code = relativeCode dev.devStatus r := congrArg BioDev.opsResult hdev
      exact (composeCode_eq_some_iff hstatus hr).mp hcode
    · obtain ⟨code, hcode, hdev⟩ := Option.map_eq_some_iff.mp h.notifyMid
      obtain rfl : code = relativeCode dev.devStatus m := congrArg BioDev.notifyMid hdev
      exact (composeCode_eq_some_iff hstatus hm).mp hcode
  · rintro ⟨htype, hrange, hmrange⟩
    have hself := relativeCode_eq_self_iff.mpr htype
    have hcompose := (composeCode_eq_some_iff hstatus hs).mpr (hself.symm ▸ hs.2)
    have hcomposeResult := (composeCode_eq_some_iff hstatus hr).mpr hrange
    have hcomposeMid := (composeCode_eq_some_iff hstatus hm).mpr hmrange
    have hall : dev.bioSetAllStatus s r m = some (dev.setAllAbsStatus
        (relativeCode dev.devStatus s) (relativeCode dev.devStatus r)
        (relativeCode dev.devStatus m)) := by
      rw [BioDev.bioSetAllStatus, hcompose, hcomposeResult, hcomposeMid]
      rfl
    refine ⟨?_, ?_, ?_, hall, ?_⟩
    · rw [hself]
      rfl
    · rw [BioDev.bioSetOpsResult, hcomposeResult, Option.map_some]
    · rw [BioDev.bioSetNotifyMid, hcomposeMid, Option.map_some]
    · -- the setters after the first find a status of the same type
      rw [← relativeCode_congr htype] at hrange hmrange
      rw [hall, bioSetEachStatus_eq hs hr hm hrange hmrange, hself,
        ← relativeCode_congr htype r, ← relativeCode_congr htype m, relativeCode, relativeCode,
        ← Int.tdiv_eq_ediv_of_nonneg hs.1, ← Int.tmod_eq_emod_of_nonneg hr.1,
        ← Int.tmod_eq_emod_of_nonneg hm.1]
      rfl

/-- A reader that is enrolling. -/
def enrollingReader : BioDev := idleReader.setDevStatus devsEnrollDoing

/-- The stop of an enroll becomes a general stop. -/
theorem not_keepsOperation : ¬ ∀ (dev : BioDev) (s r m : ℤ), IsCode dev.devStatus → IsCode s →
    IsCode r → IsCode m → KeepsOperation dev s r m := by
  intro h
  have hkeeps := h enrollingReader devsCommStopByUser opsCommStopByUser notifyCommStopByUser
    (by decide) (by decide) (by decide) (by decide)
  exact absurd (congrArg BioDev.devStatus (Option.some.inj hkeeps.devStatus)) (by decide)

/-- With a status of the same type the setters agree. -/
theorem keepsOperation_enrolling : KeepsOperation enrollingReader (opsTypeEnroll * 100 + 2)
    opsCommStopByUser notifyCommStopByUser :=
  (keepsOperation_iff enrollingReader _ _ _ (by decide) (by decide) (by decide) (by decide)).mpr
    (by decide)

end BiometricAuth
