import BiometricAuth.Driver.Ops

/-!
# D-Bus requests

The daemon runs one thread per D-Bus request. The handlers `gdbus_*_pt` all go the
same way: look the device up, try to lock its mutex, run an operation of the
framework, unlock, read `ops_result` off the device, and make the reply out of it
and of what the operation returned. Enroll, Clean and Rename check the caller's
authorisation first.

`Request.run` is what a handler does while it holds the mutex and
`Request.replies` what it makes of the result; `Request.serve` is the handler of
a request that has the device for itself.
-/

namespace BiometricAuth

open Process

/-! ### Return codes -/

/-- `RetOpsSuccess` and the other codes; a handler replies them negated. -/
@[simp] def retOpsSuccess : ℤ := 0
@[simp] def retOpsNoMatch : ℤ := 1
@[simp] def retOpsError : ℤ := 2
@[simp] def retDeviceBusy : ℤ := 3
@[simp] def retNoSuchDevice : ℤ := 4
@[simp] def retPermissionDenied : ℤ := 5

/-- A request about one device. -/
inductive Request
  | enroll (uid idx : ℤ) (idxName : String)
  | verify (uid idx : ℤ)
  | identify (uid idxStart idxEnd : ℤ)
  | capture
  | search (uid idxStart idxEnd : ℤ)
  | clean (uid idxStart idxEnd : ℤ)
  | rename (uid idx : ℤ) (newName : String)
  | getFeatureList (uid idxStart idxEnd : ℤ)
deriving DecidableEq, Repr

/-- What an operation of the framework returns. -/
inductive OpValue
  | ret (ret : ℤ)
  | caps (caps : Option Bytes)
  | flist (flist : List FeatureInfo)
deriving DecidableEq, Repr

/-- What a handler sends: a code, for Identify with a uid, for Capture with a string,
for the lists with the features. -/
inductive Reply
  | code (ret : ℤ)
  | identify (ret uid : ℤ)
  | capture (ret : ℤ) (caps : Option Bytes)
  | flist (ret : ℤ) (flist : List FeatureInfo)
deriving DecidableEq, Repr

/-- The code of a reply. -/
def Reply.ret : Reply → ℤ
  | .code ret => ret
  | .identify ret _ => ret
  | .capture ret _ => ret
  | .flist ret _ => ret

/-- The polkit actions. -/
inductive Action
  | enrollOwn | enrollAdmin | cleanOwn | cleanAdmin | renameOwn | renameAdmin
deriving DecidableEq, Repr

namespace Request

variable {π : Type}

/-- The uid a request names and the actions about own and about everybody's data, for the
requests whose handler asks for an authorisation. -/
def actions : Request → Option (ℤ × Action × Action)
  | .enroll uid _ _ => some (uid, .enrollOwn, .enrollAdmin)
  | .clean uid _ _ => some (uid, .cleanOwn, .cleanAdmin)
  | .rename uid _ _ => some (uid, .renameOwn, .renameAdmin)
  | _ => none

/-- What the handler does under the mutex. -/
def run (fp : Libfprint π) : Request → Driver π OpValue
  | .enroll uid idx idxName => do
    let w ← Proc.get
    let idx ← Proc.ofOption (enrollIndex w.uuidOf w.store.db w.dev uid idx)
    .ret <$> bioOpsEnroll fp uid idx idxName
  | .verify uid idx => .ret <$> bioOpsVerify fp uid idx
  | .identify uid idxStart idxEnd => .ret <$> bioOpsIdentify fp uid idxStart idxEnd
  | .capture => .caps <$> bioOpsCapture fp
  | .search uid idxStart idxEnd => .flist <$> bioOpsSearch fp uid idxStart idxEnd
  | .clean uid idxStart idxEnd => .ret <$> bioOpsClean fp uid idxStart idxEnd
  | .rename uid idx newName => .ret <$> bioOpsFeatureRename uid idx newName
  | .getFeatureList uid idxStart idxEnd => .flist <$> bioOpsGetFeatureList fp uid idxStart idxEnd

/-- The code of Enroll, Capture and Clean. -/
def commonCode (opsResult : ℤ) : ℤ :=
  if opsResult.tmod 100 = opsCommSuccess then -retOpsSuccess else -retOpsError

theorem commonCode_eq_success {opsResult : ℤ} :
    commonCode opsResult = -retOpsSuccess ↔ opsResult.tmod 100 = opsCommSuccess := by
  unfold commonCode
  split
  next h => exact iff_of_true rfl h
  next h => exact iff_of_false (by decide) h

/-- The code of Verify and Identify, for their results. -/
def matchCode (matched noMatch opsResult : ℤ) : ℤ :=
  if opsResult = matched then -retOpsSuccess
  else if opsResult = noMatch then -retOpsNoMatch
  else -retOpsError

/-- What the handler replies when it finds `opsResult` on the device after its
operation has returned `value`. Search goes on after a first reply and replies again. -/
def replies : Request → OpValue → ℤ → List Reply
  | .enroll .., _, opsResult => [.code (commonCode opsResult)]
  | .verify .., _, opsResult =>
    [.code (matchCode opsVerifyMatch opsVerifyNoMatch opsResult)]
  | .identify .., value, opsResult =>
    let uidRet := match value with
      | .ret uid => uid
      | _ => -1
    [.identify (matchCode opsIdentifyMatch opsIdentifyNoMatch opsResult) uidRet]
  | .capture, value, opsResult =>
    let caps := match value with
      | .caps caps => caps
      | _ => none
    [.capture (commonCode opsResult) caps]
  | .search .., value, opsResult =>
    let flist := match value with
      | .flist flist => flist
      | _ => []
    (if opsResult = opsSearchMatch then []
      else if opsResult = opsSearchNoMatch then [.flist (-retOpsSuccess) []]
      else [.flist (-retOpsError) []]) ++ [.flist flist.length flist]
  | .clean .., _, opsResult => [.code (commonCode opsResult)]
  | .rename .., _, opsResult =>
    [.code (if opsResult = opsRenameSuccess then -retOpsSuccess else -retOpsError)]
  | .getFeatureList .., value, opsResult =>
    let flist := match value with
      | .flist flist => flist
      | _ => []
    if opsResult = opsGetFlistSuccess then [.flist flist.length flist]
    else [.flist (-retOpsError) []]

/-- The reply when the request cannot have the device, for the reason `ret`: a list of
features is then said to be empty. -/
def refused : Request → ℤ → Reply
  | .identify .., ret => .identify (-ret) (-1)
  | .capture, ret => .capture (-ret) (some (bioNewString none))
  | .search .., ret => .flist (-ret) []
  | .getFeatureList .., _ => .flist 0 []
  | _, ret => .code (-ret)

end Request

/-- What becomes of a request before its operation is run. -/
inductive Admission
  | permissionDenied | noSuchDevice | deviceBusy | admitted
deriving DecidableEq, Repr

section Serve

variable {π : Type} (fp : Libfprint π)

/-- The handler of a request that nothing interrupts, as to the device. -/
def Request.serve (request : Request) : Admission → Driver π (List Reply)
  | .permissionDenied => pure [.code (-retPermissionDenied)]
  | .noSuchDevice => pure [request.refused retNoSuchDevice]
  | .deviceBusy => pure [request.refused retDeviceBusy]
  | .admitted => do
    let value ← request.run fp
    let w ← Proc.get
    return request.replies value w.dev.opsResult

/-- A request with the schedule it runs by, one after the other: each replies before the
next starts. -/
structure Served (π : Type) where
  request : Request
  admission : Admission
  schedule : List (List (Event π))

/-- The device after a request that has replied. -/
def serveStep (w : World π) (s : Served π) : Option (World π) :=
  match s.request.serve fp s.admission w s.schedule with
  | .ret _ w' _ => some w'
  | _ => none

end Serve

end BiometricAuth
