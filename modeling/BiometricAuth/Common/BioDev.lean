import BiometricAuth.Storage.Reader

/-!
# Devices and their status

`BioDev` is `bio_dev`, the record the framework keeps per driver, with the
fields its core logic reads: the identity of the device, the data its features
are stored under, and the three status words `dev_status`, `ops_result` and
`notify_mid`. A status word is a number `type * 100 + code`; the setters either
take it as it is (`..._abs_...`) or put the type of the current `dev_status` in
front of its code.

The status-change callbacks only send D-Bus signals; the message texts
(`extra_info`) and the fields of the record that nothing below reads are left
out.
-/

namespace BiometricAuth

/-- `BioType`. -/
inductive BioType
  | fingerPrint | fingerVein | iris | face | voicePrint
deriving DecidableEq, Repr

/-- The number of a `BioType`, which is what the database stores. -/
def BioType.code : BioType → ℤ
  | .fingerPrint => 0
  | .fingerVein => 1
  | .iris => 2
  | .face => 3
  | .voicePrint => 4

theorem BioType.code_nonneg (b : BioType) : 0 ≤ b.code := by
  cases b <;> decide

theorem BioType.isCInt_code (b : BioType) : IsCInt b.code := by
  cases b <;> decide

/-- `EigType`. -/
inductive EigType
  | data | eigenvalue | eigenvector
deriving DecidableEq, Repr

/-- `BusType`. -/
inductive BusType
  | serial | usb | pcie | any | other
deriving DecidableEq, Repr

/-- `bio_dev`: a driver together with its device. -/
structure BioDev where
  /-- `driver_id`. -/
  driverId : ℤ
  /-- `device_name`. -/
  deviceName : String
  /-- `enable`. -/
  enable : Bool
  /-- `dev_num`, the number of devices last discovered. -/
  devNum : ℤ
  /-- `bioinfo.biotype`. -/
  biotype : BioType
  /-- `bioinfo.eigtype`. -/
  eigtype : EigType
  /-- `bioinfo.bustype`. -/
  bustype : BusType
  /-- `usb_info.id_table`: vendor and product ids, up to the terminating entry. -/
  idTable : List (ℕ × ℕ)
  /-- `dev_status`. -/
  devStatus : ℤ
  /-- `ops_result`. -/
  opsResult : ℤ
  /-- `notify_mid`. -/
  notifyMid : ℤ
deriving DecidableEq, Repr

/-! ### Status codes -/

/-- `OPS_TYPE_COMM` and the other operation types. -/
@[simp] def opsTypeComm : ℤ := 0
@[simp] def opsTypeOpen : ℤ := 1
@[simp] def opsTypeEnroll : ℤ := 2
@[simp] def opsTypeVerify : ℤ := 3
@[simp] def opsTypeIdentify : ℤ := 4
@[simp] def opsTypeCapture : ℤ := 5
@[simp] def opsTypeSearch : ℤ := 6
@[simp] def opsTypeClean : ℤ := 7
@[simp] def opsTypeGetFlist : ℤ := 8
@[simp] def opsTypeRename : ℤ := 9
@[simp] def opsTypeClose : ℤ := 10

/-- `DEVS_COMM_IDLE` and the other device states. -/
@[simp] def devsCommIdle : ℤ := opsTypeComm * 100
@[simp] def devsCommDisable : ℤ := opsTypeComm * 100 + 3
@[simp] def devsOpenDoing : ℤ := opsTypeOpen * 100 + 1
@[simp] def devsEnrollDoing : ℤ := opsTypeEnroll * 100 + 1
@[simp] def devsVerifyDoing : ℤ := opsTypeVerify * 100 + 1
@[simp] def devsCaptureDoing : ℤ := opsTypeCapture * 100 + 1
@[simp] def devsCleanDoing : ℤ := opsTypeClean * 100 + 1
@[simp] def devsGetFlistDoing : ℤ := opsTypeGetFlist * 100 + 1
@[simp] def devsRenameDoing : ℤ := opsTypeRename * 100 + 1

/-- `OPS_COMM_SUCCESS` and the other operation results. -/
@[simp] def opsCommSuccess : ℤ := opsTypeComm * 100
@[simp] def opsCommError : ℤ := opsTypeComm * 100 + 2
@[simp] def opsCommStopByUser : ℤ := opsTypeComm * 100 + 3
@[simp] def opsOpenSuccess : ℤ := opsTypeOpen * 100
@[simp] def opsOpenFail : ℤ := opsTypeOpen * 100 + 1
@[simp] def opsEnrollSuccess : ℤ := opsTypeEnroll * 100
@[simp] def opsEnrollTimeout : ℤ := opsTypeEnroll * 100 + 4
@[simp] def opsVerifyMatch : ℤ := opsTypeVerify * 100
@[simp] def opsVerifyNoMatch : ℤ := opsTypeVerify * 100 + 1
@[simp] def opsVerifyTimeout : ℤ := opsTypeVerify * 100 + 4
@[simp] def opsIdentifyMatch : ℤ := opsTypeIdentify * 100
@[simp] def opsIdentifyNoMatch : ℤ := opsTypeIdentify * 100 + 1
@[simp] def opsIdentifyTimeout : ℤ := opsTypeIdentify * 100 + 4
@[simp] def opsCaptureSuccess : ℤ := opsTypeCapture * 100
@[simp] def opsCaptureFail : ℤ := opsTypeCapture * 100 + 1
@[simp] def opsCaptureTimeout : ℤ := opsTypeCapture * 100 + 4
@[simp] def opsSearchMatch : ℤ := opsTypeSearch * 100
@[simp] def opsSearchNoMatch : ℤ := opsTypeSearch * 100 + 1
@[simp] def opsSearchTimeout : ℤ := opsTypeSearch * 100 + 4
@[simp] def opsCleanSuccess : ℤ := opsTypeClean * 100
@[simp] def opsCleanFail : ℤ := opsTypeClean * 100 + 1
@[simp] def opsGetFlistSuccess : ℤ := opsTypeGetFlist * 100
@[simp] def opsRenameSuccess : ℤ := opsTypeRename * 100
@[simp] def opsRenameFail : ℤ := opsTypeRename * 100 + 1
@[simp] def opsCloseFail : ℤ := opsTypeClose * 100 + 1

/-- `NOTIFY_COMM_STOP_BY_USER` and the other messages to the user. -/
@[simp] def notifyCommStopByUser : ℤ := opsTypeComm * 100 + 3
@[simp] def notifyCommDisable : ℤ := opsTypeComm * 100 + 5
@[simp] def notifyCommUnsupportedOps : ℤ := opsTypeComm * 100 + 7
@[simp] def notifyOpenSuccess : ℤ := opsTypeOpen * 100
@[simp] def notifyOpenFail : ℤ := opsTypeOpen * 100 + 1
@[simp] def notifyEnrollSuccess : ℤ := opsTypeEnroll * 100
@[simp] def notifyEnrollTimeout : ℤ := opsTypeEnroll * 100 + 4
@[simp] def notifyVerifyMatch : ℤ := opsTypeVerify * 100
@[simp] def notifyVerifyNoMatch : ℤ := opsTypeVerify * 100 + 1
@[simp] def notifyVerifyTimeout : ℤ := opsTypeVerify * 100 + 4
@[simp] def notifyIdentifyMatch : ℤ := opsTypeIdentify * 100
@[simp] def notifyIdentifyNoMatch : ℤ := opsTypeIdentify * 100 + 1
@[simp] def notifyIdentifyTimeout : ℤ := opsTypeIdentify * 100 + 4
@[simp] def notifyCaptureSuccess : ℤ := opsTypeCapture * 100
@[simp] def notifyCaptureFail : ℤ := opsTypeCapture * 100 + 1
@[simp] def notifyCaptureTimeout : ℤ := opsTypeCapture * 100 + 4
@[simp] def notifySearchMatch : ℤ := opsTypeSearch * 100
@[simp] def notifySearchNoMatch : ℤ := opsTypeSearch * 100 + 1
@[simp] def notifySearchTimeout : ℤ := opsTypeSearch * 100 + 4
@[simp] def notifyCleanSuccess : ℤ := opsTypeClean * 100
@[simp] def notifyCleanFail : ℤ := opsTypeClean * 100 + 1
@[simp] def notifyGetFlistSuccess : ℤ := opsTypeGetFlist * 100
@[simp] def notifyRenameSuccess : ℤ := opsTypeRename * 100
@[simp] def notifyRenameIncomplete : ℤ := opsTypeRename * 100 + 3
@[simp] def notifyCloseFail : ℤ := opsTypeClose * 100 + 1

/-- `MID_EXTENDED_MESSAGE`, `NOTIFY_COMM_MAX + 1`: the message is the driver's own text. -/
@[simp] def midExtendedMessage : ℤ := opsTypeComm * 100 + 9

namespace BioDev

/-- The query all device operations make: the features of `dev`. -/
def query (dev : BioDev) (uid idxStart idxEnd : ℤ) : FeatureQuery where
  uid := uid
  biotype := dev.biotype.code
  driver := some dev.deviceName
  indexStart := idxStart
  indexEnd := idxEnd

/-! ### The setters of `biometric_common.c` -/

/-- `bio_set_dev_status`. -/
def setDevStatus (dev : BioDev) (status : ℤ) : BioDev := { dev with devStatus := status }

/-- `bio_set_dev_abs_status`. -/
def setDevAbsStatus (dev : BioDev) (status : ℤ) : BioDev := { dev with devStatus := status }

/-- `bio_set_ops_result`. -/
def setOpsResult (dev : BioDev) (result : ℤ) : BioDev :=
  { dev with opsResult := dev.devStatus.tdiv 100 * 100 + result.tmod 100 }

/-- `bio_set_ops_abs_result`. -/
def setOpsAbsResult (dev : BioDev) (result : ℤ) : BioDev := { dev with opsResult := result }

/-- `bio_set_notify_mid`. -/
def setNotifyMid (dev : BioDev) (mid : ℤ) : BioDev :=
  { dev with notifyMid := dev.devStatus.tdiv 100 * 100 + mid.tmod 100 }

/-- `bio_set_notify_abs_mid`. -/
def setNotifyAbsMid (dev : BioDev) (mid : ℤ) : BioDev := { dev with notifyMid := mid }

/-- `bio_set_all_abs_status`. -/
def setAllAbsStatus (dev : BioDev) (devStatus opsResult notifyMid : ℤ) : BioDev :=
  { dev with devStatus, opsResult, notifyMid }

end BioDev

/-- `bio_new_string`: a copy up to the first NUL, the empty string for `NULL`. -/
def bioNewString : Option Bytes → Bytes
  | none => []
  | some str => str.takeWhile (· ≠ 0)

/-- A fingerprint reader in its initial state. -/
def idleReader : BioDev :=
  { driverId := 100, deviceName := "uru4000", enable := true, devNum := 1,
    biotype := .fingerPrint, eigtype := .eigenvalue, bustype := .usb, idTable := [],
    devStatus := 0, opsResult := 0, notifyMid := 0 }

end BiometricAuth
