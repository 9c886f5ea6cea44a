import BiometricAuth.Daemon.Handlers

/-!
# Handler bodies

What the body of a D-Bus handler does that others notice: it takes and releases mutexes
of `dev_dbus_mutex`, reads and writes the `timestamp_*` tables, and completes its
invocation. What the body finds on its way (the lists, the locks, the authorisation, the
outcome of an operation of whatever driver) is an `Encounter`, and may be anything.

Main results:

* `DBusCall.completions_iff`: a body completes its invocation once, unless it is a
  Search whose operation has not ended with a match;
* `DBusCall.accesses_inRange_iff`: a body stays inside the tables exactly if it gets to none
  of the drivers loaded after the first 923, and an UpdateStatus names a driver id that the
  tables have a place for.
-/

namespace BiometricAuth

/-! ### Driver ids -/

/-- `BIO_DRVID_DYNAMIC_START`. -/
def bioDrvidDynamicStart : ℕ := 100

/-- `BIO_DRVID_DYNAMIC_MAX`. -/
def bioDrvidDynamicMax : ℕ := 1023

/-- `MAX_DEVICES`, the size of `dev_dbus_mutex` and of the `timestamp_*` tables. -/
def maxDevices : ℕ := bioDrvidDynamicMax

/-- The size of `drv_id_list`: one place for each dynamic id. -/
def dynamicIds : ℕ := bioDrvidDynamicMax - bioDrvidDynamicStart + 1

/-- `bio_get_empty_driver_id`: the first dynamic id that no driver has. When all are given
out, the byte after `drv_id_list` decides; `past` says whether it is `1`. -/
def bioGetEmptyDriverId (past : Bool) (drvIds : List ℤ) : ℤ :=
  match (List.range dynamicIds).find? fun i : ℕ => (i + bioDrvidDynamicStart : ℤ) ∉ drvIds with
  | some i => i + bioDrvidDynamicStart
  | none => if past then -1 else dynamicIds + bioDrvidDynamicStart

/-- The ids of `bio_drv_list` after `n` drivers have been loaded. -/
def driverIds (past : ℕ → Bool) : ℕ → List ℤ
  | 0 => []
  | n + 1 => driverIds past n ++ [bioGetEmptyDriverId (past n) (driverIds past n)]

/-! ### Bodies -/

/-- `STATUS_TYPE_DEVICE`, `STATUS_TYPE_OPERATION` and `STATUS_TYPE_NOTIFY`; each has a table of
timestamps. -/
inductive StatusType
  | device | operation | notify
deriving DecidableEq, Repr

/-- What a handler completes its invocation with. -/
inductive Completion
  | reply (reply : Reply)
  | status (ret enable devNum devStatus opsResult notifyMid : ℤ)
  | stop (ret : ℤ)
  /-- The text about a device, or that there is none. -/
  | mesg (found : Bool)
deriving DecidableEq, Repr

/-- What others notice of a handler. -/
inductive HandlerEvent
  /-- `pthread_mutex_trylock(&dev_dbus_mutex[i])`. -/
  | tryLock (i : ℤ)
  /-- `pthread_mutex_unlock(&dev_dbus_mutex[i])`. -/
  | unlock (i : ℤ)
  /-- `gdbus_signal_status_changed`. -/
  | setTimestamp (type : StatusType) (i : ℤ)
  | readTimestamp (type : StatusType) (i : ℤ)
  | complete (completion : Completion)
deriving DecidableEq, Repr

/-- The completion an event is. -/
def HandlerEvent.completion? : HandlerEvent → Option Completion
  | .complete completion => some completion
  | _ => none

/-- The place of a mutex or timestamp that an event gets at. -/
def HandlerEvent.index? : HandlerEvent → Option ℤ
  | .tryLock i => some i
  | .unlock i => some i
  | .setTimestamp _ i => some i
  | .readTimestamp _ i => some i
  | .complete _ => none

/-- How an operation of a driver ends: what it returns, what it leaves in `ops_result`, and
the status changes it has signalled. -/
structure OpOutcome where
  value : OpValue
  opsResult : ℤ
  changes : List StatusType

/-- What a handler finds. -/
structure Encounter where
  /-- `bio_drv_list`. -/
  drvList : List BioDev
  /-- `bio_dev_list`. -/
  devList : List BioDev
  /-- `auth_ret`. -/
  authRet : Bool
  /-- The mutex of a driver is free. -/
  isFree : ℤ → Bool
  /-- How the operation ends on a driver. -/
  outcome : ℤ → OpOutcome
  /-- `bio_sto_clean_feature_info` of a Clean of all drivers. -/
  systemClean : ℤ
  /-- `bio_ops_stop_ops`, and the status changes it signals. -/
  stopOps : ℤ
  stopChanges : List StatusType

namespace Encounter

/-- `get_dev_by_drvid`. -/
def getDevByDrvid (e : Encounter) (drvid : ℤ) : Option BioDev :=
  e.devList.find? fun dev => dev.driverId = drvid

/-- What others notice of the operation on a driver. -/
def operation (e : Encounter) (dev : BioDev) : List HandlerEvent :=
  (e.outcome dev.driverId).changes.map fun type => .setTimestamp type dev.driverId

/-- `gdbus_clean_by_single_dev`, with what it returns. -/
def cleanBySingleDev (e : Encounter) : Option BioDev → List HandlerEvent × ℤ
  | none => ([], -retNoSuchDevice)
  | some dev =>
    if e.getDevByDrvid dev.driverId = none then ([], -retNoSuchDevice)
    else if e.isFree dev.driverId = false then ([.tryLock dev.driverId], -retDeviceBusy)
    else
      (.tryLock dev.driverId :: e.operation dev ++ [.unlock dev.driverId],
        Request.commonCode (e.outcome dev.driverId).opsResult)

/-- The loop of a Clean over all drivers. -/
def cleanDrivers (e : Encounter) : List BioDev → ℤ → List HandlerEvent × ℤ
  | [], ret => ([], ret)
  | dev :: devs, ret =>
    let (events, singleRet) := e.cleanBySingleDev (some dev)
    let (events', ret) := e.cleanDrivers devs (if ret = 0 then singleRet else ret)
    (events ++ events', ret)

/-- What `gdbus_clean_pt` does once it is authorised. -/
def clean (e : Encounter) (drvid : ℤ) : List HandlerEvent × ℤ :=
  if drvid ≠ -1 then e.cleanBySingleDev (e.getDevByDrvid drvid)
  else
    let (events, ret) := e.cleanDrivers e.drvList 0
    let ret := if ret ≠ 0 then -retOpsError else ret
    (events, if e.systemClean = 0 then ret else -retOpsError)

/-- What the handler of a request does with its device. -/
def serve (e : Encounter) (drvid : ℤ) (request : Request) : List HandlerEvent :=
  match e.getDevByDrvid drvid with
  | none => [.complete (.reply (request.refused retNoSuchDevice))]
  | some dev =>
    if e.isFree drvid = false then
      [.tryLock drvid, .complete (.reply (request.refused retDeviceBusy))]
    else
      let outcome := e.outcome dev.driverId
      .tryLock drvid :: e.operation dev ++ .unlock drvid ::
        (request.replies outcome.value outcome.opsResult).map fun reply => .complete (.reply reply)

end Encounter

/-- A D-Bus method call that is about devices. -/
inductive DBusCall
  /-- `gdbus_enroll_pt` and the other handlers of requests. -/
  | ofRequest (drvid : ℤ) (request : Request)
  /-- `gdbus_update_status_pt`. -/
  | updateStatus (drvid : ℤ)
  /-- `gdbus_stop_ops_pt`. -/
  | stopOps (drvid : ℤ)
  /-- `gdbus_get_dev_mesg`, `gdbus_get_ops_mesg` and `gdbus_get_notify_mesg`. -/
  | getMesg (type : StatusType) (drvid : ℤ)

namespace DBusCall

/-- The body of the handler. -/
def body (e : Encounter) : DBusCall → List HandlerEvent
  | .ofRequest drvid request =>
    if request.actions.isSome ∧ e.authRet = false then
      [.complete (.reply (.code (-retPermissionDenied)))]
    else
      match request with
      | .clean .. =>
        let (events, ret) := e.clean drvid
        events ++ [.complete (.reply (.code ret))]
      | _ => e.serve drvid request
  | .updateStatus drvid =>
    let completion := match e.getDevByDrvid drvid with
      | some dev => Completion.status (-retOpsSuccess) (if dev.enable then 1 else 0) dev.devNum
          dev.devStatus dev.opsResult dev.notifyMid
      | none => Completion.status (-retNoSuchDevice) (-1) 0 (-1) (-1) (-1)
    [.readTimestamp .device drvid, .readTimestamp .operation drvid, .readTimestamp .notify drvid,
      .complete completion]
  | .stopOps drvid =>
    match e.getDevByDrvid drvid with
    | none => [.complete (.stop (-retNoSuchDevice))]
    | some dev =>
      (e.stopChanges.map fun type => .setTimestamp type dev.driverId) ++
        [.complete (.stop (if e.stopOps ≠ 0 then -retOpsError else e.stopOps))]
  | .getMesg type drvid =>
    match e.getDevByDrvid drvid with
    | none => [.complete (.mesg false)]
    | some _ => [.readTimestamp type drvid, .complete (.mesg true)]

/-- What the handler completes its invocation with, in order. -/
def completions (e : Encounter) (call : DBusCall) : List Completion :=
  (call.body e).filterMap HandlerEvent.completion?

/-- A Search that runs its operation, which does not end with a match. -/
def SearchWithoutMatch (e : Encounter) : DBusCall → Prop
  | .ofRequest drvid (.search ..) => ∃ dev, e.getDevByDrvid drvid = some dev ∧
      e.isFree drvid = true ∧ (e.outcome dev.driverId).opsResult ≠ opsSearchMatch
  | _ => False

/-- The places of mutexes and timestamps that the handler gets at. -/
def accesses (e : Encounter) (call : DBusCall) : List ℤ :=
  (call.body e).filterMap HandlerEvent.index?

/-- The devices that the handler gets to: the one it is asked for, if that is in the device
list, or in a Clean of all drivers those of the driver list. -/
def devices (e : Encounter) : DBusCall → List BioDev
  | .ofRequest drvid request =>
    if request.actions.isSome ∧ e.authRet = false then []
    else
      match request with
      | .clean .. =>
        if drvid ≠ -1 then (e.getDevByDrvid drvid).toList
        else e.drvList.filter fun dev => e.getDevByDrvid dev.driverId ≠ none
      | _ => (e.getDevByDrvid drvid).toList
  | .updateStatus _ => []
  | .stopOps drvid => if e.stopChanges = [] then [] else (e.getDevByDrvid drvid).toList
  | .getMesg _ drvid => (e.getDevByDrvid drvid).toList

/-- An UpdateStatus names a place of the tables. -/
def NamesPlace : DBusCall → Prop
  | .updateStatus drvid => 0 ≤ drvid ∧ drvid < maxDevices
  | _ => True

end DBusCall

/-- The driver list after `n` drivers have been loaded; the devices are some of the drivers. -/
structure Encounter.Configured (e : Encounter) (past : ℕ → Bool) (n : ℕ) : Prop where
  ids : e.drvList.map BioDev.driverId = driverIds past n
  devs : e.devList ⊆ e.drvList

/-! ### Completions -/

namespace HandlerEvent

@[simp] theorem completion?_tryLock (i : ℤ) : (tryLock i).completion? = none := rfl

@[simp] theorem completion?_unlock (i : ℤ) : (unlock i).completion? = none := rfl

@[simp] theorem completion?_setTimestamp (type : StatusType) (i : ℤ) :
    (setTimestamp type i).completion? = none := rfl

@[simp] theorem completion?_complete (completion : Completion) :
    (complete completion).completion? = some completion := rfl

end HandlerEvent

theorem Encounter.completions_operation (e : Encounter) (dev : BioDev) :
    (e.operation dev).filterMap HandlerEvent.completion? = [] := by
  simp [operation]

theorem Encounter.completions_cleanBySingleDev (e : Encounter) (dev : Option BioDev) :
    (e.cleanBySingleDev dev).1.filterMap HandlerEvent.completion? = [] := by
  unfold cleanBySingleDev
  cases dev with
  | none => rfl
  | some dev =>
    simp only
    split
    · rfl
    · split
      · rfl
      · rw [List.filterMap_append, List.filterMap_cons, completions_operation]
        rfl

theorem Encounter.completions_cleanDrivers (e : Encounter) (devs : List BioDev) (ret : ℤ) :
    (e.cleanDrivers devs ret).1.filterMap HandlerEvent.completion? = [] := by
  induction devs generalizing ret with
  | nil => rfl
  | cons dev devs ih => simp [cleanDrivers, List.filterMap_append, completions_cleanBySingleDev, ih]

theorem Encounter.completions_clean (e : Encounter) (drvid : ℤ) :
    (e.clean drvid).1.filterMap HandlerEvent.completion? = [] := by
  unfold clean
  split
  · exact e.completions_cleanBySingleDev _
  · exact e.completions_cleanDrivers _ _

/-- The replies of an operation, and the one a refused request is sent. -/
theorem Encounter.completions_serve (e : Encounter) (drvid : ℤ) (request : Request) :
    (e.serve drvid request).filterMap HandlerEvent.completion? =
      match e.getDevByDrvid drvid with
      | none => [.reply (request.refused retNoSuchDevice)]
      | some dev =>
        if e.isFree drvid = false then [.reply (request.refused retDeviceBusy)]
        else
          (request.replies (e.outcome dev.driverId).value
            (e.outcome dev.driverId).opsResult).map .reply := by
  unfold serve
  cases e.getDevByDrvid drvid with
  | none => rfl
  | some dev =>
    simp only
    split
    · rfl
    · rw [List.filterMap_append, List.filterMap_cons, completions_operation]
      simp [List.filterMap_cons, Function.comp_def]

/-- A Search replies twice unless it has a match, all others reply once. -/
theorem Request.length_replies (request : Request) (value : OpValue) (opsResult : ℤ) :
    (request.replies value opsResult).length =
      match request with
      | .search .. => if opsResult = opsSearchMatch then 1 else 2
      | _ => 1 := by
  cases request with
  | search uid idxStart idxEnd =>
    simp only [replies]
    split
    · rfl
    · split <;> rfl
  | getFeatureList uid idxStart idxEnd =>
    simp only [replies]
    split <;> rfl
  | _ => rfl

/-- **One reply per call.** Whatever the handler finds, unless it is a Search whose operation
runs and does not end with a match. -/
theorem DBusCall.completions_iff (e : Encounter) (call : DBusCall) :
    (call.completions e).length = 1 ↔ ¬ call.SearchWithoutMatch e := by
  cases call with
  | ofRequest drvid request =>
    -- the body of the operation completes with its replies, if the device is there and free
    have hserve : ((e.serve drvid request).filterMap HandlerEvent.completion?).length = 1 ↔
        ¬ (DBusCall.ofRequest drvid request).SearchWithoutMatch e := by
      rw [e.completions_serve]
      cases hdev : e.getDevByDrvid drvid with
      | none => cases request <;> simp [SearchWithoutMatch, hdev]
      | some dev =>
        cases hfree : e.isFree drvid with
        | false => cases request <;> simp [SearchWithoutMatch, hdev, hfree]
        | true =>
          -- the replies of a search depend on what it has found, the others are one each
          simp only [Bool.true_eq_false, if_false, List.length_map, Request.length_replies]
          cases request with
          | search uid idxStart idxEnd =>
            simp only [SearchWithoutMatch, hdev, hfree, Option.some.injEq, exists_eq_left',
              true_and, not_not]
            split <;> simp_all
          | _ => simp [SearchWithoutMatch]
    -- a clean has its own body, which completes itself
    cases request with
    | clean uid idxStart idxEnd =>
      refine iff_of_true ?_ (fun h => h)
      simp only [completions, body]
      split
      · rfl
      · simp [List.filterMap_append, e.completions_clean, HandlerEvent.completion?]
    | enroll | rename =>
      -- enroll and rename ask polkit before
      by_cases hauth : e.authRet = false
      · refine iff_of_true ?_ (fun h => h)
        simp [completions, body, hauth, Request.actions, HandlerEvent.completion?]
      · simpa [completions, body, hauth] using hserve
    | verify | identify | capture | search | getFeatureList =>
      -- the others are run at once
      simpa [completions, body, Request.actions] using hserve
  | updateStatus drvid => exact iff_of_true rfl (fun h => h)
  | stopOps drvid =>
    -- a stop completes with its result, whatever it has found
    refine iff_of_true ?_ (fun h => h)
    simp only [completions, body]
    cases e.getDevByDrvid drvid with
    | none => rfl
    | some dev =>
      simp [List.filterMap_append, HandlerEvent.completion?, List.filterMap_map, Function.comp_def]
  | getMesg type drvid =>
    refine iff_of_true ?_ (fun h => h)
    simp only [completions, body]
    cases e.getDevByDrvid drvid <;> rfl

/-- The device of the driver loaded first. -/
def firstDev : BioDev :=
  { driverId := 100, deviceName := "uru4000", enable := true, devNum := 1,
    biotype := .fingerPrint, eigtype := .eigenvalue, bustype := .usb, idTable := [],
    devStatus := 0, opsResult := 0, notifyMid := 0 }

/-- There is only this device, and an operation on it ends with `OPS_SEARCH_NO_MATCH`. -/
def noMatchEncounter : Encounter where
  drvList := [firstDev]
  devList := [firstDev]
  authRet := true
  isFree _ := true
  outcome _ := ⟨.flist [], opsSearchNoMatch, [.device, .operation, .notify]⟩
  systemClean := 0
  stopOps := 0
  stopChanges := []

/-- A Search without a match is replied to twice. -/
theorem not_completions_one : ¬ ∀ (e : Encounter) (call : DBusCall),
    (call.completions e).length = 1 := by
  intro h
  have htwo : ((DBusCall.ofRequest 100 (.search 1000 0 (-1))).completions
      noMatchEncounter).length = 2 := by decide
  exact absurd ((h _ _).symm.trans htwo) (by decide)

/-! ### Driver ids that have a place -/

/-- The place behind the ids given out so far is the next. -/
theorem bioGetEmptyDriverId_range (past : Bool) {n : ℕ} (hn : n < dynamicIds) :
    bioGetEmptyDriverId past ((List.range n).map fun i : ℕ => (i + bioDrvidDynamicStart : ℤ)) =
      n + bioDrvidDynamicStart := by
  have hfind : (List.range dynamicIds).find? (fun i : ℕ => (i + bioDrvidDynamicStart : ℤ) ∉
      (List.range n).map fun i : ℕ => (i + bioDrvidDynamicStart : ℤ)) = some n := by
    rw [List.find?_range_eq_some]
    have hmem (j : ℕ) : (j + bioDrvidDynamicStart : ℤ) ∈
        (List.range n).map (fun i : ℕ => (i + bioDrvidDynamicStart : ℤ)) ↔ j < n := by simp
    refine ⟨?_, List.mem_range.2 hn, fun j hj => ?_⟩
    · simp only [hmem, Nat.lt_irrefl, not_false_eq_true, decide_true]
    · simp only [hmem, hj, not_true_eq_false, decide_false, Bool.not_false]
  unfold bioGetEmptyDriverId
  rw [hfind]

/-- The first 924 drivers get the ids from 100 on. -/
theorem driverIds_eq_range (past : ℕ → Bool) {n : ℕ} (hn : n ≤ dynamicIds) :
    driverIds past n = (List.range n).map fun i : ℕ => (i + bioDrvidDynamicStart : ℤ) := by
  induction n with
  | zero => rfl
  | succ n ih =>
    rw [driverIds, ih (by omega), bioGetEmptyDriverId_range _ (by omega), List.range_succ,
      List.map_append]
    rfl

theorem driverIds_initial (past : ℕ → Bool) {k n : ℕ} (h : k ≤ n) :
    driverIds past k <+: driverIds past n := by
  induction n, h using Nat.le_induction with
  | base => exact List.prefix_rfl
  | succ n hn ih => exact ih.trans (List.prefix_append _ _)

/-- Once the first 923 ids are given out, only ids without a place in the tables are left. -/
theorem bioGetEmptyDriverId_of_full (past : Bool) {drvIds : List ℤ}
    (h : ∀ i < dynamicIds - 1, (i + bioDrvidDynamicStart : ℤ) ∈ drvIds) :
    bioGetEmptyDriverId past drvIds = -1 ∨ maxDevices ≤ bioGetEmptyDriverId past drvIds := by
  unfold bioGetEmptyDriverId
  split
  · rename_i i hfind
    have hi : (i + bioDrvidDynamicStart : ℤ) ∉ drvIds := by simpa using List.find?_some hfind
    have hle : dynamicIds - 1 ≤ i := by
      by_contra hlt
      exact hi (h i (by omega))
    right
    simp only [dynamicIds, maxDevices, bioDrvidDynamicMax, bioDrvidDynamicStart] at hle ⊢
    omega
  · cases past
    · right
      decide
    · exact .inl rfl

theorem mem_take_driverIds (past : ℕ → Bool) {n : ℕ} {i : ℤ}
    (h : i ∈ (driverIds past n).take (dynamicIds - 1)) : 0 ≤ i ∧ i < maxDevices := by
  have hmem : i ∈ driverIds past (min n (dynamicIds - 1)) := by
    rcases Nat.le_total n (dynamicIds - 1) with hn | hn
    · rw [Nat.min_eq_left hn]
      exact List.mem_of_mem_take h
    · rw [Nat.min_eq_right hn]
      have hlen : (driverIds past (dynamicIds - 1)).length = dynamicIds - 1 := by
        rw [driverIds_eq_range past (Nat.sub_le _ _), List.length_map, List.length_range]
      rwa [← hlen, ← List.prefix_iff_eq_take.1 (driverIds_initial past hn)] at h
  rw [driverIds_eq_range past (by omega)] at hmem
  obtain ⟨j, hj, rfl⟩ := List.mem_map.1 hmem
  simp only [List.mem_range, dynamicIds, maxDevices, bioDrvidDynamicMax,
    bioDrvidDynamicStart] at hj ⊢
  omega

theorem mem_drop_driverIds (past : ℕ → Bool) {n : ℕ} {i : ℤ}
    (h : i ∈ (driverIds past n).drop (dynamicIds - 1)) : i = -1 ∨ maxDevices ≤ i := by
  induction n with
  | zero => simp [driverIds] at h
  | succ n ih =>
    rw [driverIds, List.drop_append] at h
    rcases List.mem_append.1 h with h | h
    · exact ih h
    · have hlen : dynamicIds - 1 ≤ n := by
        by_contra hlt
        rw [driverIds_eq_range past (by omega)] at h
        rw [List.drop_eq_nil_of_le (by simp; omega)] at h
        exact List.not_mem_nil h
      have hi : i = bioGetEmptyDriverId (past n) (driverIds past n) :=
        List.mem_singleton.1 (List.mem_of_mem_drop h)
      rw [hi]
      refine bioGetEmptyDriverId_of_full _ fun j hj => ?_
      refine (driverIds_initial past hlen).subset ?_
      rw [driverIds_eq_range past (Nat.sub_le _ _)]
      exact List.mem_map_of_mem (List.mem_range.2 hj)

/-- The drivers that have a place in the tables are the first 923. -/
theorem Encounter.Configured.mem_take_iff {e : Encounter} {past : ℕ → Bool} {n : ℕ}
    (h : e.Configured past n) {dev : BioDev} (hdev : dev ∈ e.drvList) :
    dev ∈ e.drvList.take (dynamicIds - 1) ↔
      0 ≤ dev.driverId ∧ dev.driverId < maxDevices := by
  constructor
  · intro htake
    refine mem_take_driverIds past (n := n) ?_
    rw [← h.ids, ← List.map_take]
    exact List.mem_map_of_mem htake
  · intro hrange
    rw [← List.take_append_drop (dynamicIds - 1) e.drvList] at hdev
    refine (List.mem_append.1 hdev).resolve_right fun hdrop => ?_
    have hid : dev.driverId ∈ (driverIds past n).drop (dynamicIds - 1) := by
      rw [← h.ids, ← List.map_drop]
      exact List.mem_map_of_mem hdrop
    have := mem_drop_driverIds past hid
    omega

/-! ### Accesses -/

namespace HandlerEvent

@[simp] theorem index?_tryLock (i : ℤ) : (tryLock i).index? = some i := rfl

@[simp] theorem index?_unlock (i : ℤ) : (unlock i).index? = some i := rfl

@[simp] theorem index?_setTimestamp (type : StatusType) (i : ℤ) :
    (setTimestamp type i).index? = some i := rfl

@[simp] theorem index?_readTimestamp (type : StatusType) (i : ℤ) :
    (readTimestamp type i).index? = some i := rfl

@[simp] theorem index?_complete (completion : Completion) :
    (complete completion).index? = none := rfl

end HandlerEvent

section Accesses

variable (e : Encounter) {i : ℤ}

theorem Encounter.getDevByDrvid_eq {drvid : ℤ} {dev : BioDev}
    (h : e.getDevByDrvid drvid = some dev) : dev.driverId = drvid ∧ dev ∈ e.devList :=
  ⟨by simpa using List.find?_some h, List.mem_of_find?_eq_some h⟩

theorem Encounter.index_of_operation {dev : BioDev}
    (h : i ∈ (e.operation dev).filterMap HandlerEvent.index?) : i = dev.driverId := by
  obtain ⟨event, hevent, hi⟩ := List.mem_filterMap.1 h
  obtain ⟨type, -, rfl⟩ := List.mem_map.1 hevent
  exact (Option.some.inj hi).symm

/-- A Clean of one device locks its mutex first. -/
theorem Encounter.mem_accesses_cleanBySingleDev (dev : Option BioDev) :
    i ∈ (e.cleanBySingleDev dev).1.filterMap HandlerEvent.index? ↔
      ∃ d, dev = some d ∧ e.getDevByDrvid d.driverId ≠ none ∧ d.driverId = i := by
  unfold cleanBySingleDev
  cases dev with
  | none => simp
  | some dev =>
    simp only [Option.some.injEq, exists_eq_left']
    split
    · simp [*]
    · rename_i hlisted
      split
      · simp [hlisted, eq_comm]
      · simp only [List.filterMap_append, List.filterMap_cons, List.mem_append, hlisted, ne_eq,
          not_false_eq_true, true_and]
        have hop : i ∈ (e.operation dev).filterMap HandlerEvent.index? → i = dev.driverId :=
          e.index_of_operation
        simp
        grind

theorem Encounter.mem_accesses_cleanDrivers (devs : List BioDev) (ret : ℤ) :
    i ∈ (e.cleanDrivers devs ret).1.filterMap HandlerEvent.index? ↔
      ∃ dev ∈ devs, e.getDevByDrvid dev.driverId ≠ none ∧ dev.driverId = i := by
  induction devs generalizing ret with
  | nil => simp [cleanDrivers]
  | cons dev devs ih =>
    rw [cleanDrivers, List.filterMap_append, List.mem_append, mem_accesses_cleanBySingleDev, ih]
    simp

theorem Encounter.mem_accesses_clean (drvid : ℤ) :
    i ∈ (e.clean drvid).1.filterMap HandlerEvent.index? ↔
      ∃ dev ∈ (if drvid ≠ -1 then (e.getDevByDrvid drvid).toList
        else e.drvList.filter fun dev => e.getDevByDrvid dev.driverId ≠ none),
        dev.driverId = i := by
  unfold clean
  split
  · rw [mem_accesses_cleanBySingleDev]
    constructor
    · rintro ⟨dev, hdev, -, hi⟩
      exact ⟨dev, Option.mem_toList.2 hdev, hi⟩
    · rintro ⟨dev, hdev, hi⟩
      have hsome := Option.mem_toList.1 hdev
      refine ⟨dev, hsome, ?_, hi⟩
      rw [(e.getDevByDrvid_eq hsome).1, hsome]
      exact Option.some_ne_none _
  · rw [mem_accesses_cleanDrivers]
    simp [and_assoc]

theorem Encounter.mem_accesses_serve (drvid : ℤ) (request : Request) :
    i ∈ (e.serve drvid request).filterMap HandlerEvent.index? ↔
      ∃ dev ∈ (e.getDevByDrvid drvid).toList, dev.driverId = i := by
  unfold serve
  cases hdev : e.getDevByDrvid drvid with
  | none => simp
  | some dev =>
    have hid := (e.getDevByDrvid_eq hdev).1
    simp only [Option.toList_some, List.mem_singleton, exists_eq_left, hid]
    split
    · simp [eq_comm]
    · have hop : i ∈ (e.operation dev).filterMap HandlerEvent.index? → i = dev.driverId :=
        e.index_of_operation
      have hreplies (replies : List Reply) : (replies.map fun reply =>
          HandlerEvent.complete (.reply reply)).filterMap HandlerEvent.index? = [] := by
        simp
      simp only [List.filterMap_append, List.filterMap_cons, List.mem_append, hreplies]
      simp
      grind

/-- A handler gets at the places of the devices it gets to; UpdateStatus at the one it is
asked for. -/
theorem DBusCall.mem_accesses (call : DBusCall) :
    i ∈ call.accesses e ↔
      (∃ dev ∈ call.devices e, dev.driverId = i) ∨ call = .updateStatus i := by
  cases call with
  | ofRequest drvid request =>
    -- the three ways a body goes: refused, clean over all drivers, one driver
    simp only [reduceCtorEq, or_false, accesses, body, devices]
    split
    · simp
    · split
      · rw [List.filterMap_append, List.mem_append, e.mem_accesses_clean]
        simp
      · exact e.mem_accesses_serve drvid request
  | updateStatus drvid =>
    -- nothing is looked up here, and the place is read at once
    simp only [accesses, body, devices, List.not_mem_nil, false_and, exists_false, false_or,
      updateStatus.injEq]
    simp only [List.filterMap_cons, List.filterMap_nil, HandlerEvent.index?_readTimestamp,
      HandlerEvent.index?_complete, List.mem_cons, List.not_mem_nil, or_false, or_self]
    exact eq_comm
  | stopOps drvid =>
    -- a stop gets at the device it finds, if that is not idle
    simp only [reduceCtorEq, or_false, accesses, body, devices]
    cases hdev : e.getDevByDrvid drvid with
    | none => simp
    | some dev =>
      cases hchanges : e.stopChanges with
      | nil => simp
      | cons change changes => simp [eq_comm]
  | getMesg type drvid =>
    -- the message is read from the device that was found
    simp only [reduceCtorEq, or_false, accesses, body, devices]
    cases hdev : e.getDevByDrvid drvid with
    | none => simp
    | some dev => simp [(e.getDevByDrvid_eq hdev).1, eq_comm]

theorem DBusCall.devices_subset {past : ℕ → Bool} {n : ℕ} (h : e.Configured past n)
    (call : DBusCall) : call.devices e ⊆ e.drvList := by
  have hlisted (drvid : ℤ) : (e.getDevByDrvid drvid).toList ⊆ e.drvList := fun dev hdev =>
    h.devs (e.getDevByDrvid_eq (Option.mem_toList.1 hdev)).2
  cases call with
  | ofRequest drvid request =>
    simp only [devices]
    split
    · exact List.nil_subset _
    · split
      · split
        · exact hlisted drvid
        · exact List.filter_subset_self _
      · exact hlisted drvid
  | updateStatus drvid => exact List.nil_subset _
  | stopOps drvid =>
    simp only [devices]
    split
    · exact List.nil_subset _
    · exact hlisted drvid
  | getMesg type drvid => exact hlisted drvid

end Accesses

/-- **Places in range.** Every mutex and timestamp the handler gets at is one of the tables',
exactly if an UpdateStatus names such a place and the devices that the handler gets to are of
the drivers loaded first. -/
theorem DBusCall.accesses_inRange_iff (past : ℕ → Bool) (n : ℕ) (e : Encounter)
    (h : e.Configured past n) (call : DBusCall) :
    (∀ i ∈ call.accesses e, 0 ≤ i ∧ i < maxDevices) ↔
      call.NamesPlace ∧ ∀ dev ∈ call.devices e, dev ∈ e.drvList.take (dynamicIds - 1) := by
  have hdevices : (∀ dev ∈ call.devices e, dev ∈ e.drvList.take (dynamicIds - 1)) ↔
      ∀ dev ∈ call.devices e, 0 ≤ dev.driverId ∧ dev.driverId < maxDevices :=
    forall₂_congr fun dev hdev => h.mem_take_iff (call.devices_subset e h hdev)
  rw [hdevices]
  simp only [call.mem_accesses e]
  constructor
  · intro hall
    refine ⟨?_, fun dev hdev => hall _ (.inl ⟨dev, hdev, rfl⟩)⟩
    cases call with
    | updateStatus drvid => exact hall drvid (.inr rfl)
    | _ => trivial
  · rintro ⟨hplace, hall⟩ i (⟨dev, hdev, rfl⟩ | rfl)
    · exact hall dev hdev
    · exact hplace

/-- The first driver is loaded and a Search runs on its device. -/
theorem DBusCall.accesses_inRange_search :
    (DBusCall.ofRequest 100 (.search 1000 0 (-1))).accesses noMatchEncounter ≠ [] ∧
      ∀ i ∈ (DBusCall.ofRequest 100 (.search 1000 0 (-1))).accesses noMatchEncounter,
        0 ≤ i ∧ i < maxDevices :=
  ⟨by decide +kernel, (accesses_inRange_iff (fun _ => false) 1 noMatchEncounter
    ⟨by decide +kernel, List.Subset.refl _⟩ _).2 ⟨trivial, by decide +kernel⟩⟩

/-- UpdateStatus reads the timestamps of whatever id it is asked for. -/
theorem not_accesses_inRange : ¬ ∀ (past : ℕ → Bool) (n : ℕ) (e : Encounter),
    e.Configured past n → ∀ call : DBusCall, ∀ i ∈ call.accesses e, 0 ≤ i ∧ i < maxDevices := by
  intro h
  have := (h (fun _ => false) 1 noMatchEncounter ⟨by decide +kernel, List.Subset.refl _⟩
    (.updateStatus (-1)) (-1) (by decide)).1
  omega

end BiometricAuth
