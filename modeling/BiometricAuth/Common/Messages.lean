import BiometricAuth.Common.StatusSetters

/-!
# Status texts

`bio_get_dev_status_mesg`, `bio_get_ops_result_mesg` and `bio_get_notify_mid_mesg` give the text of
a status word: the text of the driver, if it has one, or that of a table, or a text that says
that there is none. The community driver has a text of its own only for `MID_EXTENDED_MESSAGE`, the
one in its buffer `extra_info`.

The texts are those of the C locale.
-/

namespace BiometricAuth

/-! ### Codes -/

/-- `DEVS_COMM_DOING` and the other device states that no function of the model sets. -/
@[simp] def devsCommDoing : ℤ := opsTypeComm * 100 + 1
@[simp] def devsOpenStopByUser : ℤ := opsTypeOpen * 100 + 2
@[simp] def devsEnrollStopByUser : ℤ := opsTypeEnroll * 100 + 2
@[simp] def devsVerifyStopByUser : ℤ := opsTypeVerify * 100 + 2
@[simp] def devsIdentifyDoing : ℤ := opsTypeIdentify * 100 + 1
@[simp] def devsIdentifyStopByUser : ℤ := opsTypeIdentify * 100 + 2
@[simp] def devsCaptureStopByUser : ℤ := opsTypeCapture * 100 + 2
@[simp] def devsSearchDoing : ℤ := opsTypeSearch * 100 + 1
@[simp] def devsSearchStopByUser : ℤ := opsTypeSearch * 100 + 2
@[simp] def devsCleanStopByUser : ℤ := opsTypeClean * 100 + 2
@[simp] def devsGetFlistStopByUser : ℤ := opsTypeGetFlist * 100 + 2
@[simp] def devsRenameStopByUser : ℤ := opsTypeRename * 100 + 2
@[simp] def devsCloseDoing : ℤ := opsTypeClose * 100 + 1
@[simp] def devsCloseStopByUser : ℤ := opsTypeClose * 100 + 2

/-- `OPS_COMM_FAIL` and the other operation results. -/
@[simp] def opsCommFail : ℤ := opsTypeComm * 100 + 1
@[simp] def opsCommTimeout : ℤ := opsTypeComm * 100 + 4
@[simp] def opsCommOutOfMem : ℤ := opsTypeComm * 100 + 5
@[simp] def opsOpenError : ℤ := opsTypeOpen * 100 + 2
@[simp] def opsEnrollFail : ℤ := opsTypeEnroll * 100 + 1
@[simp] def opsEnrollError : ℤ := opsTypeEnroll * 100 + 2
@[simp] def opsEnrollStopByUser : ℤ := opsTypeEnroll * 100 + 3
@[simp] def opsVerifyError : ℤ := opsTypeVerify * 100 + 2
@[simp] def opsVerifyStopByUser : ℤ := opsTypeVerify * 100 + 3
@[simp] def opsIdentifyError : ℤ := opsTypeIdentify * 100 + 2
@[simp] def opsIdentifyStopByUser : ℤ := opsTypeIdentify * 100 + 3
@[simp] def opsCaptureError : ℤ := opsTypeCapture * 100 + 2
@[simp] def opsCaptureStopByUser : ℤ := opsTypeCapture * 100 + 3
@[simp] def opsSearchError : ℤ := opsTypeSearch * 100 + 2
@[simp] def opsSearchStopByUser : ℤ := opsTypeSearch * 100 + 3
@[simp] def opsCleanError : ℤ := opsTypeClean * 100 + 2
@[simp] def opsCleanStopByUser : ℤ := opsTypeClean * 100 + 3
@[simp] def opsCleanTimeout : ℤ := opsTypeClean * 100 + 4
@[simp] def opsGetFlistFail : ℤ := opsTypeGetFlist * 100 + 1
@[simp] def opsGetFlistError : ℤ := opsTypeGetFlist * 100 + 2
@[simp] def opsRenameError : ℤ := opsTypeRename * 100 + 2
@[simp] def opsCloseSuccess : ℤ := opsTypeClose * 100
@[simp] def opsCloseError : ℤ := opsTypeClose * 100 + 2

/-- `NOTIFY_COMM_IDLE` and the other messages to the user. -/
@[simp] def notifyCommIdle : ℤ := opsTypeComm * 100
@[simp] def notifyCommFail : ℤ := opsTypeComm * 100 + 1
@[simp] def notifyCommError : ℤ := opsTypeComm * 100 + 2
@[simp] def notifyCommTimeout : ℤ := opsTypeComm * 100 + 4
@[simp] def notifyCommOutOfMem : ℤ := opsTypeComm * 100 + 6
@[simp] def notifyOpenError : ℤ := opsTypeOpen * 100 + 2
@[simp] def notifyEnrollFail : ℤ := opsTypeEnroll * 100 + 1
@[simp] def notifyEnrollError : ℤ := opsTypeEnroll * 100 + 2
@[simp] def notifyEnrollStopByUser : ℤ := opsTypeEnroll * 100 + 3
@[simp] def notifyVerifyError : ℤ := opsTypeVerify * 100 + 2
@[simp] def notifyVerifyStopByUser : ℤ := opsTypeVerify * 100 + 3
@[simp] def notifyIdentifyError : ℤ := opsTypeIdentify * 100 + 2
@[simp] def notifyIdentifyStopByUser : ℤ := opsTypeIdentify * 100 + 3
@[simp] def notifyCaptureError : ℤ := opsTypeCapture * 100 + 2
@[simp] def notifyCaptureStopByUser : ℤ := opsTypeCapture * 100 + 3
@[simp] def notifySearchError : ℤ := opsTypeSearch * 100 + 2
@[simp] def notifySearchStopByUser : ℤ := opsTypeSearch * 100 + 3
@[simp] def notifyCleanError : ℤ := opsTypeClean * 100 + 2
@[simp] def notifyCleanStopByUser : ℤ := opsTypeClean * 100 + 3
@[simp] def notifyCleanTimeout : ℤ := opsTypeClean * 100 + 4
@[simp] def notifyGetFlistFail : ℤ := opsTypeGetFlist * 100 + 1
@[simp] def notifyGetFlistError : ℤ := opsTypeGetFlist * 100 + 2
@[simp] def notifyRenameFail : ℤ := opsTypeRename * 100 + 1
@[simp] def notifyRenameError : ℤ := opsTypeRename * 100 + 2
@[simp] def notifyCloseSuccess : ℤ := opsTypeClose * 100
@[simp] def notifyCloseError : ℤ := opsTypeClose * 100 + 2

/-! ### Tables -/

/-- The texts of `bio_get_dev_status_mesg`. -/
def devStatusMesgs : List (ℤ × String) :=
  [(devsCommIdle, "Device idle"),
   (devsCommDoing, "Device is in process"),
   (devsCommStopByUser, "Terminating current operation"),
   (devsCommDisable, "Device is disabled"),
   (devsOpenDoing, "Opening device"),
   (devsOpenStopByUser, "Terminating open operation"),
   (devsEnrollDoing, "Enrolling"),
   (devsEnrollStopByUser, "Terminating enroll operation"),
   (devsVerifyDoing, "Verifying"),
   (devsVerifyStopByUser, "Terminating Verify operation"),
   (devsIdentifyDoing, "Identifying"),
   (devsIdentifyStopByUser, "Terminating identify operation"),
   (devsCaptureDoing, "Capturing"),
   (devsCaptureStopByUser, "Terminating capture operation"),
   (devsSearchDoing, "Searching"),
   (devsSearchStopByUser, "Terminating search operation"),
   (devsCleanDoing, "Cleaning"),
   (devsCleanStopByUser, "Terminating clean operation"),
   (devsGetFlistDoing, "Getting feature list"),
   (devsGetFlistStopByUser, "Terminating get feature list operation"),
   (devsRenameDoing, "Renaming feature"),
   (devsRenameStopByUser, "Terminating feature rename operation"),
   (devsCloseDoing, "Closing"),
   (devsCloseStopByUser, "Terminating close operation")]

/-- The texts of `bio_get_ops_result_mesg`. -/
def opsResultMesgs : List (ℤ × String) :=
  [(opsCommSuccess, "Operation successful"),
   (opsCommFail, "Operation failed"),
   (opsCommError, "An error was encountered during the operation"),
   (opsCommStopByUser, "The operation was interrupted by the user"),
   (opsCommTimeout, "Operation timeout"),
   (opsCommOutOfMem, "Out of memory"),
   (opsOpenSuccess, "Open device completion"),
   (opsOpenFail, "Open device failed"),
   (opsOpenError, "An error was encountered during the opening"),
   (opsEnrollSuccess, "Enroll feature successful"),
   (opsEnrollFail, "Enroll feature failed"),
   (opsEnrollError, "An error was encountered during enrolling"),
   (opsEnrollStopByUser, "Enroll operation was interrupted by the user"),
   (opsEnrollTimeout, "Enroll operation timeout"),
   (opsVerifyMatch, "Verify feature match"),
   (opsVerifyNoMatch, "Verify feature no match"),
   (opsVerifyError, "An error was encountered during verifying"),
   (opsVerifyStopByUser, "Verify operation was interrupted by the user"),
   (opsVerifyTimeout, "Verify operation timeout"),
   (opsIdentifyMatch, "Identify feature match"),
   (opsIdentifyNoMatch, "Identify feature no match"),
   (opsIdentifyError, "An error was encountered during identifying"),
   (opsIdentifyStopByUser, "Identify operation was interrupted by the user"),
   (opsIdentifyTimeout, "Identify operation timeout"),
   (opsCaptureSuccess, "Capture feature successful"),
   (opsCaptureFail, "Capture feature failed"),
   (opsCaptureError, "An error was encountered during capturing"),
   (opsCaptureStopByUser, "Capture operation was interrupted by the user"),
   (opsCaptureTimeout, "Capture operation timeout"),
   (opsSearchMatch, "Find the specified features"),
   (opsSearchNoMatch, "No specified features were found"),
   (opsSearchError, "An error was encountered during searching"),
   (opsSearchStopByUser, "Search operation was interrupted by the user"),
   (opsSearchTimeout, "Search operation timeout"),
   (opsCleanSuccess, "Clean feature successful"),
   (opsCleanFail, "Clean feature failed"),
   (opsCleanError, "An error was encountered during cleaning"),
   (opsCleanStopByUser, "Clean operation was interrupted by the user"),
   (opsCleanTimeout, "Clean operation timeout"),
   (opsGetFlistSuccess, "Get feature list completion"),
   (opsGetFlistFail, "Get feature list failed"),
   (opsGetFlistError, "An error was encountered during getting feature list"),
   (opsRenameSuccess, "Rename feature successful"),
   (opsRenameFail, "Rename feature failed"),
   (opsRenameError, "An error was encountered during renaming"),
   (opsCloseSuccess, "Close device completion"),
   (opsCloseFail, "Close device failed"),
   (opsCloseError, "An error was encountered during closing")]

/-- The texts of `bio_get_notify_mid_mesg`. -/
def notifyMidMesgs : List (ℤ × String) :=
  [(notifyCommIdle, "Device idle"),
   (notifyCommFail, "Operation failed"),
   (notifyCommError, "An error was encountered during the operation"),
   (notifyCommStopByUser, "The operation was interrupted by the user"),
   (notifyCommTimeout, "Operation timeout"),
   (notifyCommDisable, "Device is disable"),
   (notifyCommOutOfMem, "Out of memory"),
   (notifyCommUnsupportedOps, "The device or driver does not support this operation"),
   (notifyOpenSuccess, "Open device completion"),
   (notifyOpenFail, "Open device failed"),
   (notifyOpenError, "An error was encountered during the opening"),
   (notifyEnrollSuccess, "Enroll feature successful"),
   (notifyEnrollFail, "Enroll feature failed"),
   (notifyEnrollError, "An error was encountered during enrolling"),
   (notifyEnrollStopByUser, "Enroll operation was interrupted by the user"),
   (notifyEnrollTimeout, "Enroll operation timeout"),
   (notifyVerifyMatch, "Verify feature match"),
   (notifyVerifyNoMatch, "Verify feature no match"),
   (notifyVerifyError, "An error was encountered during verifying"),
   (notifyVerifyStopByUser, "Verify operation was interrupted by the user"),
   (notifyVerifyTimeout, "Verify operation timeout"),
   (notifyIdentifyMatch, "Identify feature match"),
   (notifyIdentifyNoMatch, "Identify feature no match"),
   (notifyIdentifyError, "An error was encountered during identifying"),
   (notifyIdentifyStopByUser, "Identify operation was interrupted by the user"),
   (notifyIdentifyTimeout, "Identify operation timeout"),
   (notifyCaptureSuccess, "Capture feature successful"),
   (notifyCaptureFail, "Capture feature failed"),
   (notifyCaptureError, "An error was encountered during capturing"),
   (notifyCaptureStopByUser, "Capture operation was interrupted by the user"),
   (notifyCaptureTimeout, "Capture operation timeout"),
   (notifySearchMatch, "Find the specified features"),
   (notifySearchNoMatch, "No specified features were found"),
   (notifySearchError, "An error was encountered during searching"),
   (notifySearchStopByUser, "Search operation was interrupted by the user"),
   (notifySearchTimeout, "Search operation timeout"),
   (notifyCleanSuccess, "Clean feature successful"),
   (notifyCleanFail, "Clean feature failed"),
   (notifyCleanError, "An error was encountered during cleaning"),
   (notifyCleanStopByUser, "Clean operation was interrupted by the user"),
   (notifyCleanTimeout, "Clean operation timeout"),
   (notifyGetFlistSuccess, "Get feature list completion"),
   (notifyGetFlistFail, "Get feature list failed"),
   (notifyGetFlistError, "An error was encountered during getting feature list"),
   (notifyRenameSuccess, "Rename feature successful"),
   (notifyRenameFail, "Rename feature failed"),
   (notifyRenameError, "An error was encountered during renaming"),
   (notifyRenameIncomplete, "Feature renaming is not complete, please try again"),
   (notifyCloseSuccess, "Close device completion"),
   (notifyCloseFail, "Close device failed"),
   (notifyCloseError, "An error was encountered during closing")]

/-- What `bio_get_dev_status_mesg` says of any other status. -/
def unknownDevStatusMesg : String := "Device is in an unknown status..."

/-- What `bio_get_ops_result_mesg` says of any other result. -/
def unknownOpsResultMesg : String := "Operation is in an unknown status......"

/-- What `bio_get_notify_mid_mesg` says of any other message. -/
def unknownNotifyMidMesg : String := "Device internal error"

/-! ### The texts of a device -/

/-- What the three functions have in common: the text of the driver comes first. -/
def statusMesg (opsMesg : Option String) (mesgs : List (ℤ × String)) (unknown : String)
    (code : ℤ) : String :=
  match opsMesg with
  | some mesg => mesg
  | none => (mesgs.lookup code).getD unknown

/-- `bio_get_dev_status_mesg`. -/
def bioGetDevStatusMesg (opsMesg : Option String) (dev : BioDev) : String :=
  statusMesg opsMesg devStatusMesgs unknownDevStatusMesg dev.devStatus

/-- `bio_get_ops_result_mesg`. -/
def bioGetOpsResultMesg (opsMesg : Option String) (dev : BioDev) : String :=
  statusMesg opsMesg opsResultMesgs unknownOpsResultMesg dev.opsResult

/-- `bio_get_notify_mid_mesg`. -/
def bioGetNotifyMidMesg (opsMesg : Option String) (dev : BioDev) : String :=
  statusMesg opsMesg notifyMidMesgs unknownNotifyMidMesg dev.notifyMid

/-- `community_ops_get_dev_status_mesg`. -/
def communityOpsGetDevStatusMesg (_dev : BioDev) : Option String := none

/-- `community_ops_get_ops_result_mesg`. -/
def communityOpsGetOpsResultMesg (_dev : BioDev) : Option String := none

/-- `community_ops_get_notify_mid_mesg`. -/
def communityOpsGetNotifyMidMesg (extraInfo : String) (dev : BioDev) : Option String :=
  if dev.notifyMid = midExtendedMessage then some extraInfo else none

/-- The codes that a table has a text for. -/
def worded (mesgs : List (ℤ × String)) : List ℤ := mesgs.map Prod.fst

/-- A table none of whose texts says that there is none has a text of its own for exactly the codes
in it. -/
theorem statusMesg_ne_iff {mesgs : List (ℤ × String)} {unknown : String} {code : ℤ}
    (hmesgs : ∀ mesg ∈ mesgs, mesg.2 ≠ unknown) :
    statusMesg none mesgs unknown code ≠ unknown ↔ code ∈ worded mesgs := by
  rw [statusMesg, worded, List.mem_map]
  cases hlookup : mesgs.lookup code with
  | none =>
    rw [List.lookup_eq_none_iff] at hlookup
    refine iff_of_false (fun h => h rfl) ?_
    rintro ⟨mesg, hmesg, rfl⟩
    simpa using hlookup mesg hmesg
  | some mesg =>
    obtain ⟨before, after, rfl, -⟩ := List.lookup_eq_some_iff.mp hlookup
    have hmem : (code, mesg) ∈ before ++ (code, mesg) :: after := by simp
    exact iff_of_true (hmesgs _ hmem) ⟨_, hmem, rfl⟩

theorem bioGetDevStatusMesg_ne_iff {dev : BioDev} :
    bioGetDevStatusMesg (communityOpsGetDevStatusMesg dev) dev ≠ unknownDevStatusMesg ↔
      dev.devStatus ∈ worded devStatusMesgs :=
  statusMesg_ne_iff (by decide)

theorem bioGetOpsResultMesg_ne_iff {dev : BioDev} :
    bioGetOpsResultMesg (communityOpsGetOpsResultMesg dev) dev ≠ unknownOpsResultMesg ↔
      dev.opsResult ∈ worded opsResultMesgs :=
  statusMesg_ne_iff (by decide)

end BiometricAuth
