import BiometricAuth.Common.Messages
import BiometricAuth.Daemon.Bodies
import BiometricAuth.Lib.Announce

/-!
# Status signals

The daemon tells its clients that a status word of a device has changed by the signal
`StatusChanged`, which carries the driver id and which of the three words it is, but not the new
value. A client that shows the messages of an operation to its user asks for the text then
(`GetNotifyMesg`), in a call that blocks it.

The threads of the daemon set the status words with the setters of `biometric_common.c`, each of
which assigns and then emits the signals; the text of an extended message is written to `extra_info`
some calls before. All of this interleaves with the client: the daemon with its threads, the bus and
the client are a system of announced changes (`Announce`).

The device stays attached, and the threads that set its status are those of a community driver and
of the framework.

Main results:

* `run_shows_notify_mesg`: whatever the order of the steps, once nothing is under way the client
  shows the message of its device;
* `run_signals_settle`: this is the case a bounded number of steps after the last operation has set
  its last status.
-/

namespace BiometricAuth

open Announce

/-! ### The calls that set the status -/

/-- The status words of a device with the text of its driver. -/
structure StatusWords where
  dev : BioDev
  /-- `extra_info`. -/
  extraInfo : String

/-- `EXTRA_INFO_LENGTH`. -/
def extraInfoLength : ℕ := 1024

/-- `bio_set_all_status`. -/
def BioDev.setAllStatus (dev : BioDev) (devStatus opsResult notifyMid : ℤ) : BioDev :=
  let type := dev.devStatus.tdiv 100
  { dev with
    devStatus := type * 100 + devStatus.tmod 100
    opsResult := type * 100 + opsResult.tmod 100
    notifyMid := type * 100 + notifyMid.tmod 100 }

/-- A call that sets the status. -/
inductive StatusCall
  | setDevStatus (status : ℤ)
  | setDevAbsStatus (status : ℤ)
  | setOpsResult (result : ℤ)
  | setOpsAbsResult (result : ℤ)
  | setNotifyMid (mid : ℤ)
  | setNotifyAbsMid (mid : ℤ)
  | setAllStatus (devStatus opsResult notifyMid : ℤ)
  | setAllAbsStatus (devStatus opsResult notifyMid : ℤ)
  /-- `snprintf` to `extra_info`, which cuts the text. -/
  | extraInfo (text : String)

namespace StatusCall

/-- What a call assigns. -/
def assign (words : StatusWords) : StatusCall → StatusWords
  | setDevStatus status => { words with dev := words.dev.setDevStatus status }
  | setDevAbsStatus status => { words with dev := words.dev.setDevAbsStatus status }
  | setOpsResult result => { words with dev := words.dev.setOpsResult result }
  | setOpsAbsResult result => { words with dev := words.dev.setOpsAbsResult result }
  | setNotifyMid mid => { words with dev := words.dev.setNotifyMid mid }
  | setNotifyAbsMid mid => { words with dev := words.dev.setNotifyAbsMid mid }
  | setAllStatus s r m => { words with dev := words.dev.setAllStatus s r m }
  | setAllAbsStatus s r m => { words with dev := words.dev.setAllAbsStatus s r m }
  | extraInfo text =>
    { words with extraInfo := String.ofList (text.toList.take (extraInfoLength - 1)) }

/-- The signals a call emits after that. -/
def signals : StatusCall → List StatusType
  | setDevStatus _ | setDevAbsStatus _ => [.device]
  | setOpsResult _ | setOpsAbsResult _ => [.operation]
  | setNotifyMid _ | setNotifyAbsMid _ => [.notify]
  | setAllStatus .. | setAllAbsStatus .. => [.device, .operation, .notify]
  | extraInfo _ => []

end StatusCall

/-- The places at which the framework and the driver set the status of a device, with what differs
between those of a kind. -/
inductive StatusReport
  /-- The device begins something, is disabled or becomes idle. -/
  | status (status : ℤ)
  /-- A disabled device: open, close, capture and enroll of the driver. -/
  | disabled
  /-- A disabled device: `bio_ops_*`. -/
  | opsDisabled
  /-- An operation that the driver does not have. -/
  | unsupported
  | opened
  /-- The user is asked for a finger, or told that there is a stop request. -/
  | prompt (text : String)
  /-- An operation has timed out, or an enroll has succeeded. -/
  | finished (result mid : ℤ)
  | stopped
  /-- A match callback, or the end of a search. -/
  | compared (text : String) (result mid : ℤ)
  | captured (result mid : ℤ)
  | cleaned
  | cleanFailed
  | listed
  /-- `bio_common_get_feature_list`. -/
  | commonListed
  | renameDoing
  | renamed (result mid : ℤ)

/-- The calls of a place. -/
def StatusReport.calls : StatusReport → List StatusCall
  | status s => [.setDevStatus s]
  | disabled =>
    [.setDevStatus devsCommDisable, .setOpsResult opsCommError, .setNotifyAbsMid notifyCommDisable]
  | opsDisabled =>
    [.setDevStatus devsCommDisable, .setOpsResult opsCommError, .setNotifyMid notifyCommDisable]
  | unsupported => [.setOpsResult opsCommError, .setNotifyAbsMid notifyCommUnsupportedOps]
  | opened =>
    [.setDevStatus devsCommIdle, .setOpsAbsResult opsOpenSuccess,
      .setNotifyAbsMid notifyOpenSuccess]
  | prompt text => [.extraInfo text, .setNotifyAbsMid midExtendedMessage]
  | finished result mid =>
    [.setOpsAbsResult result, .setNotifyAbsMid mid, .setDevStatus devsCommIdle]
  | stopped =>
    [.setOpsResult opsCommStopByUser, .setNotifyMid notifyCommStopByUser,
      .setDevStatus devsCommIdle]
  | compared text result mid =>
    [.extraInfo text, .setOpsAbsResult result, .setNotifyAbsMid mid,
      .setNotifyAbsMid midExtendedMessage]
  | captured result mid =>
    [.setDevStatus devsCommIdle, .setOpsResult result, .setNotifyAbsMid mid]
  | cleaned =>
    [.setOpsAbsResult opsCleanSuccess, .setNotifyAbsMid notifyCleanSuccess,
      .setDevStatus devsCommIdle]
  | cleanFailed =>
    [.setOpsResult opsCleanFail, .setNotifyAbsMid notifyCleanFail, .setDevStatus devsCommIdle]
  | listed =>
    [.extraInfo "_get_feature_list fingerprint template seccessful", .setDevStatus devsCommIdle,
      .setOpsAbsResult opsGetFlistSuccess, .setNotifyAbsMid midExtendedMessage]
  | commonListed =>
    [.setDevStatus devsCommIdle, .setOpsAbsResult opsGetFlistSuccess,
      .setNotifyAbsMid notifyGetFlistSuccess]
  | renameDoing => [.setDevAbsStatus devsRenameDoing]
  | renamed result mid => [.setAllAbsStatus devsCommIdle result mid]

/-! ### The system -/

section Signals

variable (opsDrvId : ℤ)

/-- `statusChangedHandler` of the client: whether it asks for the message. -/
def statusChangedHandler (drvid : ℤ) (statusType : StatusType) : Bool :=
  drvid = opsDrvId ∧ statusType = .notify

/-- What `gdbus_get_notify_mesg` answers the client. -/
def gdbusGetNotifyMesg (devs : ℤ → StatusWords) : String :=
  let words := devs opsDrvId
  bioGetNotifyMidMesg (communityOpsGetNotifyMidMesg words.extraInfo words.dev) words.dev

/-- A call on the device `drvid`, step by step. -/
def StatusCall.acts (drvid : ℤ) (call : StatusCall) : List (Act (ℤ → StatusWords)) :=
  .write (fun devs => Function.update devs drvid (call.assign (devs drvid))) ::
    call.signals.map fun statusType => .announce (statusChangedHandler opsDrvId drvid statusType)

/-- The calls of a place, step by step. -/
def StatusReport.acts (drvid : ℤ) (report : StatusReport) : List (Act (ℤ → StatusWords)) :=
  report.calls.flatMap (StatusCall.acts opsDrvId drvid)

/-! ### Every change is announced -/

variable {opsDrvId}

/-- Other devices do not matter to the client. -/
theorem gdbusGetNotifyMesg_update_of_ne {drvid : ℤ} (h : drvid ≠ opsDrvId)
    (devs : ℤ → StatusWords) (words : StatusWords) :
    gdbusGetNotifyMesg opsDrvId (Function.update devs drvid words) =
      gdbusGetNotifyMesg opsDrvId devs := by
  simp only [gdbusGetNotifyMesg, Function.update_of_ne h.symm]

/-- The text of a device is that of its message and of `extra_info`. -/
theorem gdbusGetNotifyMesg_update_self {devs : ℤ → StatusWords} {words : StatusWords}
    (hmid : words.dev.notifyMid = (devs opsDrvId).dev.notifyMid)
    (hextra : words.extraInfo = (devs opsDrvId).extraInfo) :
    gdbusGetNotifyMesg opsDrvId (Function.update devs opsDrvId words) =
      gdbusGetNotifyMesg opsDrvId devs := by
  simp only [gdbusGetNotifyMesg, bioGetNotifyMidMesg, communityOpsGetNotifyMidMesg,
    Function.update_self, hmid, hextra]

/-- A call that changes the text announces it, if it is a setter. -/
theorem StatusCall.announced (drvid : ℤ) (call : StatusCall) {acts : List (Act (ℤ → StatusWords))}
    (hacts : Announced (gdbusGetNotifyMesg opsDrvId) acts)
    (hextra : ∀ text, call = .extraInfo text → drvid = opsDrvId → .announce true ∈ acts) :
    Announced (gdbusGetNotifyMesg opsDrvId) (call.acts opsDrvId drvid ++ acts) := by
  have hsignals : ∀ signals : List StatusType, Announced (gdbusGetNotifyMesg opsDrvId)
      (signals.map (fun statusType => .announce (statusChangedHandler opsDrvId drvid statusType)) ++
        acts) := by
    intro signals
    induction signals with
    | nil => exact hacts
    | cons signal signals ih => exact ih
  refine ⟨?_, hsignals call.signals⟩
  by_cases hdrvid : drvid = opsDrvId
  · subst hdrvid
    cases call with
    | setNotifyMid | setNotifyAbsMid | setAllStatus | setAllAbsStatus =>
      exact .inr (by simp [signals, statusChangedHandler])
    | extraInfo text => exact .inr (List.mem_append_right _ (hextra text rfl rfl))
    | setDevStatus | setDevAbsStatus | setOpsResult | setOpsAbsResult =>
      exact .inl fun devs => gdbusGetNotifyMesg_update_self rfl rfl
  · exact .inl fun devs => gdbusGetNotifyMesg_update_of_ne hdrvid devs _

/-- An `extra_info` that is written is followed by a message. -/
def announcesText : List StatusCall → Bool
  | [] => true
  | .extraInfo _ :: calls => calls.any (fun call => .notify ∈ call.signals) && announcesText calls
  | _ :: calls => announcesText calls

theorem announcesText_tail {call : StatusCall} {calls : List StatusCall}
    (h : announcesText (call :: calls) = true) : announcesText calls = true := by
  cases call with
  | extraInfo text => exact (Bool.and_eq_true_iff.mp h).2
  | _ => exact h

/-- By induction on the calls. -/
theorem calls_announced (drvid : ℤ) {calls : List StatusCall} (h : announcesText calls = true)
    {acts : List (Act (ℤ → StatusWords))} (hacts : Announced (gdbusGetNotifyMesg opsDrvId) acts) :
    Announced (gdbusGetNotifyMesg opsDrvId)
      (calls.flatMap (StatusCall.acts opsDrvId drvid) ++ acts) := by
  induction calls with
  | nil => exact hacts
  | cons call calls ih =>
    rw [List.flatMap_cons, List.append_assoc]
    refine call.announced drvid (ih (announcesText_tail h)) fun text htext hdrvid => ?_
    subst htext hdrvid
    obtain ⟨call, hcall, hnotify⟩ := List.any_eq_true.mp (Bool.and_eq_true_iff.mp h).1
    refine List.mem_append_left _ (List.mem_flatMap.mpr ⟨call, hcall, List.mem_cons_of_mem _ ?_⟩)
    refine List.mem_map.mpr ⟨.notify, by simpa using hnotify, ?_⟩
    simp [statusChangedHandler]

theorem StatusReport.announcesText (report : StatusReport) :
    announcesText report.calls = true := by
  cases report <;> rfl

/-- By induction on the places. -/
theorem reports_announced (drvid : ℤ) (reports : List StatusReport) :
    Announced (gdbusGetNotifyMesg opsDrvId)
      (reports.flatMap (StatusReport.acts opsDrvId drvid)) := by
  induction reports with
  | nil => trivial
  | cons report reports ih =>
    rw [List.flatMap_cons]
    exact calls_announced drvid report.announcesText ih

/-! ### Runs -/

/-- A step of the daemon, the bus or the client. -/
inductive SignalStep (T : Type)
  /-- The thread `t` begins an operation on the device `drvid`, in the course of which it comes to
  these places. -/
  | operate (t : T) (drvid : ℤ) (reports : List StatusReport)
  /-- The thread `t` goes on: it assigns, or it emits a signal. -/
  | goOn (t : T)
  /-- A signal or an answer arrives at the client. -/
  | arrive
  /-- The client handles a signal that has arrived. -/
  | handle
  /-- The client asks for the message without a signal (`outputMsg` after the reply). -/
  | outputMsg
  /-- The daemon reads the message for an answer (`gdbus_get_notify_mesg`). -/
  | getNotifyMesg
  /-- It sends the answer (`biometric_complete_get_notify_mesg`). -/
  | completeGetNotifyMesg

/-- The operations still under way go on, and nothing begins. -/
def SignalStep.Settles {T : Type} : SignalStep T → Prop
  | operate .. | outputMsg => False
  | goOn _ | arrive | handle | getNotifyMesg | completeGetNotifyMesg => True

variable {T : Type} [DecidableEq T] (opsDrvId)

/-- The step of the system. -/
def SignalStep.toStep : SignalStep T → Step T (gdbusGetNotifyMesg opsDrvId)
  | operate t drvid reports =>
    .start t ⟨reports.flatMap (StatusReport.acts opsDrvId drvid), reports_announced drvid reports⟩
  | goOn t => .act t
  | arrive => .receive
  | handle => .handle
  | outputMsg => .ask
  | getNotifyMesg => .serve
  | completeGetNotifyMesg => .reply

/-- One step. -/
def signalStep (s : State T (ℤ → StatusWords) String) (a : SignalStep T) :
    Option (State T (ℤ → StatusWords) String) :=
  s.step (gdbusGetNotifyMesg opsDrvId) (a.toStep opsDrvId)

theorem run_signalStep (s : State T (ℤ → StatusWords) String) (as : List (SignalStep T)) :
    Machine.run (signalStep opsDrvId) s as =
      Machine.run (State.step (gdbusGetNotifyMesg opsDrvId)) s
        (as.map (SignalStep.toStep opsDrvId)) := by
  rw [Machine.run, Machine.run, List.foldlM_map]
  rfl

omit [DecidableEq T] in
theorem SignalStep.toStep_settles {a : SignalStep T} (h : a.Settles) :
    (a.toStep opsDrvId).Settles := by
  cases a <;> exact h

variable {opsDrvId}

/-- **No message is lost.** However the steps of the threads of the daemon, of the bus and of the
client interleave: once nothing is under way, the client shows the message of its device, or has
not asked yet and the message is still that of the beginning. -/
theorem run_shows_notify_mesg (devs : ℤ → StatusWords) {as : List (SignalStep T)}
    {s : State T (ℤ → StatusWords) String}
    (hrun : Machine.run (signalStep opsDrvId) (State.init T String devs) as = some s)
    (hquiet : s.Quiet) :
    s.shown.getD (gdbusGetNotifyMesg opsDrvId devs) = gdbusGetNotifyMesg opsDrvId s.value := by
  rw [run_signalStep] at hrun
  exact State.run_shown hrun hquiet

/-- **The client catches up.** After any run, if no operation begins any more, nothing is under way
after as many steps as there is work left, and until then there is always a step that can be
taken. -/
theorem run_signals_settle [Fintype T] (devs : ℤ → StatusWords) {as bs : List (SignalStep T)}
    {s s' : State T (ℤ → StatusWords) String}
    (hrun : Machine.run (signalStep opsDrvId) (State.init T String devs) as = some s)
    (hbs : ∀ b ∈ bs, b.Settles) (hrun' : Machine.run (signalStep opsDrvId) s bs = some s') :
    bs.length ≤ s.work ∧
      (s'.Quiet ∨ ∃ b : SignalStep T, b.Settles ∧ (signalStep opsDrvId s' b).isSome) := by
  rw [run_signalStep] at hrun hrun'
  -- the steps settle in the system's own words too
  have hsettles : ∀ b ∈ bs.map (SignalStep.toStep opsDrvId), b.Settles := by
    intro b hb
    obtain ⟨b, hmem, rfl⟩ := List.mem_map.mp hb
    exact b.toStep_settles opsDrvId (hbs b hmem)
  -- so it has done its work, or can go on
  obtain ⟨hlength, hnext⟩ := State.run_settles hrun hsettles hrun'
  rw [List.length_map] at hlength
  refine ⟨by omega, hnext.imp_right ?_⟩
  rintro ⟨b, hb, hstep⟩
  -- a step that goes on is one of the daemon's or the client's
  cases b with
  | start | ask => exact hb.elim
  | act t => exact ⟨.goOn t, trivial, hstep⟩
  | receive => exact ⟨.arrive, trivial, hstep⟩
  | handle => exact ⟨.handle, trivial, hstep⟩
  | serve => exact ⟨.getNotifyMesg, trivial, hstep⟩
  | reply => exact ⟨.completeGetNotifyMesg, trivial, hstep⟩

end Signals

/-! ### A run -/

/-- An enroll begins; while the client is answered with its first message, the stage callback sets
the next one. -/
def enrollSignals : List (SignalStep Bool) :=
  [.operate false 100 [.prompt "enroll start ! Please press your finger.\n"], .goOn false,
    .goOn false, .goOn false, .arrive, .handle,
    .operate true 100 [.prompt "Enroll stage[ 1 / 5 ] passed."], .goOn true, .getNotifyMesg,
    .goOn true, .goOn true, .completeGetNotifyMesg, .arrive, .arrive, .handle, .getNotifyMesg,
    .completeGetNotifyMesg, .arrive]

/-- The readers, all of them idle. -/
def idleWords (_drvid : ℤ) : StatusWords := ⟨idleReader, ""⟩

/-- The client shows the second message in the end. -/
theorem enrollSignals_shows_notify_mesg :
    ∃ s, Machine.run (signalStep 100) (State.init Bool String idleWords) enrollSignals = some s ∧
      s.shown = some "Enroll stage[ 1 / 5 ] passed." ∧
      s.shown.getD (gdbusGetNotifyMesg 100 idleWords) = gdbusGetNotifyMesg 100 s.value := by
  obtain ⟨s, hrun⟩ : ∃ s, Machine.run (signalStep 100) (State.init Bool String idleWords)
    enrollSignals = some s := ⟨_, rfl⟩
  obtain rfl := Option.some.inj hrun
  refine ⟨_, rfl, rfl, run_shows_notify_mesg idleWords hrun ⟨fun t => ?_, rfl, rfl, rfl, rfl⟩⟩
  cases t <;> rfl

/-- After the first three steps there are six steps left at most. -/
theorem enrollSignals_settle : ∃ s s',
    Machine.run (signalStep 100) (State.init Bool String idleWords) (enrollSignals.take 3) =
      some s ∧
    Machine.run (signalStep 100) s [.goOn false, .arrive, .handle, .getNotifyMesg,
      .completeGetNotifyMesg, .arrive] = some s' ∧ 6 ≤ s.work ∧
      (s'.Quiet ∨ ∃ b : SignalStep Bool, b.Settles ∧ (signalStep 100 s' b).isSome) := by
  have hsettles : ∀ b ∈ ([.goOn false, .arrive, .handle, .getNotifyMesg,
      .completeGetNotifyMesg, .arrive] : List (SignalStep Bool)), b.Settles := by
    simp [SignalStep.Settles]
  have hrun : Machine.run (signalStep 100) (State.init Bool String idleWords)
    (enrollSignals.take 3) = some _ := rfl
  exact ⟨_, _, hrun, rfl, run_signals_settle idleWords hrun hsettles rfl⟩

end BiometricAuth
