import BiometricAuth.Daemon.Sequential
import BiometricAuth.Driver.Writes

/-!
# Who may change biometric data

Enroll, Clean and Rename look up the uid of the caller and ask polkit for one of two
actions: the one about own data if the caller's uid is the one the request names, the one
about everybody's data otherwise. The uid variable is preset to `0` and the result of the
lookup is not looked at.

`Daemon` is the daemon with all its drivers and the database they share; a `Call` is a
request of some caller, and `Call.serve` its handler.

Main results:

* `along_authorised`: in every run of requests none of which falls into the gap the failed
  lookup leaves (`Call.Gap`), only authorised requests change a user's rows, and denied
  ones change nothing;
* `not_along_authorised`: a caller without a uid clears the features of user `0`.
-/

namespace BiometricAuth

open Process World

/-! ### Authorisation -/

/-- The sender of a request. -/
structure Caller where
  /-- The uid the bus tells; `none` when the lookup fails. -/
  uid : Option UInt32
  /-- `authority_check_by_polkit`. -/
  isAuthorised : Action → Bool

/-- A uid of the bus, stored in a `gint`. -/
def gint (uid : UInt32) : ℤ := uid.toBitVec.toInt

/-- `auth_uid` after `get_dbus_caller_uid`, which leaves it alone when it fails. -/
def Caller.authUid (caller : Caller) : ℤ :=
  match caller.uid with
  | none => 0
  | some uid => gint uid

/-- `auth_ret`; requests that change nothing are not checked. -/
def Caller.authRet (caller : Caller) (request : Request) : Bool :=
  match request.actions with
  | none => true
  | some (uid, own, admin) =>
    if caller.authUid = uid then caller.isAuthorised own else caller.isAuthorised admin

/-! ### The daemon -/

/-- The drivers and the database. -/
structure Daemon (π : Type) where
  /-- `bio_drv_list`; the drivers share the table and the UUIDs of the daemon. -/
  drivers : List (World π)
  /-- `bio_dev_list`, by the places of its devices in `bio_drv_list`. -/
  devList : List ℕ
  store : Store
  uuidOf : ℤ → String

namespace Daemon

variable {π : Type}

/-- A driver, with what it shares. -/
def driver (d : Daemon π) (i : ℕ) : Option (World π) :=
  d.drivers[i]?.map fun w => { w with store := d.store, uuidOf := d.uuidOf }

/-- A driver has changed, and with it the database. -/
def setDriver (d : Daemon π) (i : ℕ) (w : World π) : Daemon π :=
  { d with drivers := d.drivers.set i w, store := w.store }

/-- `get_dev_by_drvid`. -/
def getDevByDrvid (d : Daemon π) (drvid : ℤ) : Option ℕ :=
  d.devList.find? fun i => (d.driver i).any fun w => w.dev.driverId = drvid

/-- A program of one driver. -/
def onDriver {α : Type} (i : ℕ) (p : Driver π α) : Proc (Daemon π) (Event π) α := fun d es =>
  match d.driver i with
  | none => .crashed d
  | some w =>
    match p w es with
    | .ret a w' es' => .ret a (d.setDriver i w') es'
    | .waiting w' => .waiting (d.setDriver i w')
    | .crashed w' => .crashed (d.setDriver i w')

end Daemon

/-! ### Calls -/

/-- A request about the device `drvid`, by a caller. -/
structure Call where
  drvid : ℤ
  request : Request
  caller : Caller
  /-- The mutex of a driver is not free. -/
  busy : ℤ → Bool

section Serve

variable {π : Type} (fp : Libfprint π)

/-- `gdbus_clean_by_single_dev`, for the driver in place `i`. -/
def gdbusCleanBySingleDev (busy : ℤ → Bool) (i : ℕ) (uid idxStart idxEnd : ℤ) :
    Proc (Daemon π) (Event π) ℤ := do
  let d ← Proc.get
  match d.driver i with
  | none => return -retNoSuchDevice
  | some w =>
    if (d.getDevByDrvid w.dev.driverId).isNone then return -retNoSuchDevice
    else if busy w.dev.driverId then return -retDeviceBusy
    else
      Daemon.onDriver i do
        let _ ← bioOpsClean fp uid idxStart idxEnd
        let w ← Proc.get
        return Request.commonCode w.dev.opsResult

/-- The loop of a Clean over all drivers: the first result that is not `0` stays. -/
def cleanDrivers (busy : ℤ → Bool) (uid idxStart idxEnd : ℤ) :
    List ℕ → ℤ → Proc (Daemon π) (Event π) ℤ
  | [], ret => return ret
  | i :: is, ret => do
    let singleRet ← gdbusCleanBySingleDev fp busy i uid idxStart idxEnd
    cleanDrivers busy uid idxStart idxEnd is (if ret = 0 then singleRet else ret)

/-- The Clean of all drivers, and of the rows that no driver is there for. -/
def cleanAll (busy : ℤ → Bool) (uid idxStart idxEnd : ℤ) : Proc (Daemon π) (Event π) ℤ := do
  let d ← Proc.get
  let ret ← cleanDrivers fp busy uid idxStart idxEnd (List.range d.drivers.length) 0
  let ret := if ret ≠ 0 then -retOpsError else ret
  let d ← Proc.get
  let (singleRet, store) := bioStoCleanFeatureInfo d.store ⟨uid, -1, none, idxStart, idxEnd⟩
  Proc.modify fun d => { d with store := store }
  return if singleRet = 0 then ret else -retOpsError

/-- The handler of a call that is not about all drivers. -/
def serveDriver (call : Call) : Proc (Daemon π) (Event π) (List Reply) := do
  let d ← Proc.get
  match d.getDevByDrvid call.drvid with
  | none => return [call.request.refused retNoSuchDevice]
  | some i =>
    if call.busy call.drvid then return [call.request.refused retDeviceBusy]
    else Daemon.onDriver i (call.request.serve fp .admitted)

/-- The handler of a call. -/
def Call.serve (call : Call) : Proc (Daemon π) (Event π) (List Reply) :=
  if call.caller.authRet call.request = false then
    return [.code (-retPermissionDenied)]
  else
    match call.request with
    | .clean uid idxStart idxEnd =>
      if call.drvid = -1 then do
        let ret ← cleanAll fp call.busy uid idxStart idxEnd
        return [.code ret]
      else serveDriver fp call
    | _ => serveDriver fp call

/-- The daemon after a call, also where it never replies. -/
def Daemon.step (d : Daemon π) (call : Call × List (List (Event π))) : Option (Daemon π) :=
  some (call.1.serve fp d call.2).state

/-! ### What the property is -/

/-- The caller may change the rows of user `u` by a request: they are his own, and polkit says
that he may change his own, or it says that he may change everybody's. -/
def Caller.MayChange (caller : Caller) (request : Request) (u : ℤ) : Prop :=
  ∃ uid own admin, request.actions = some (uid, own, admin) ∧
    ((∃ callerUid, caller.uid = some callerUid ∧ gint callerUid = u ∧ u = uid ∧
        caller.isAuthorised own = true) ∨
      caller.isAuthorised admin = true)

/-- Only the rows are changed that the caller may change, and none, and nothing else either,
when the request is denied. -/
def Authorised (d : Daemon π) (call : Call × List (List (Event π))) : Prop :=
  ∀ d', d.step fp call = some d' →
    (∀ u, d'.store.db.rowsOf u ≠ d.store.db.rowsOf u →
      call.1.caller.MayChange call.1.request u) ∧
    (call.1.caller.authRet call.1.request = false → d' = d)

/-- The users whose rows a request is about. -/
def Request.users : Request → Set ℤ
  | .enroll uid _ _ => {uid}
  | .clean uid _ _ => usersOf uid
  | .rename uid _ _ => usersOf uid
  | _ => ∅

/-- Polkit has authorised own data only, for a request that names the uid the lookup has left
in `auth_uid`, and yet these are not known to be the caller's own data: the lookup failed, or
that uid is the `-1` that stands for everybody. -/
def Call.Gap (call : Call) : Prop :=
  ∃ uid own admin, call.request.actions = some (uid, own, admin) ∧
    call.caller.isAuthorised own = true ∧ call.caller.isAuthorised admin = false ∧
    call.caller.authUid = uid ∧
    (call.caller.uid = none ∨ ∃ u ∈ call.request.users, u ≠ uid)

/-! ### What a call can change -/

variable {fp} {U : Set ℤ} {db₀ : EigenInfo}

/-- A request changes the rows it is about at most. -/
theorem Request.run_keeps (request : Request) :
    (request.run fp).Leads (fun w : World π => KeepsOthers request.users db₀ w.store.db)
      (fun w => KeepsOthers request.users db₀ w.store.db) := by
  cases request with
  | enroll uid idx idxName =>
    -- an index is looked for first, which reads the table only
    refine .get_bind fun w h => .ofOption_bind ?_ fun idx _ => ?_
    · rintro _ rfl
      exact h
    · -- the driver's enroll writes rows of the user alone
      refine .map ?_
      refine (bioOps_keeps (communityOpsEnroll_leads (Set.mem_singleton uid))).mono ?_ fun _ h => h
      rintro _ rfl
      exact h
  | verify uid idx => exact .map (bioOps_keeps communityOpsVerify_leads)
  | identify uid idxStart idxEnd => exact .map (bioOps_keeps communityOpsIdentify_leads)
  | capture =>
    -- the world that the handler reads is the one the call starts from
    refine .map (.get_bind fun w h => ?_)
    refine ((bioOps_keeps communityOpsCapture_leads).mono ?_ fun _ h => h).bind fun caps =>
      .pure fun _ h => h
    rintro _ rfl
    exact h
  | search uid idxStart idxEnd => exact .map (bioOps_keeps communityOpsSearch_leads)
  | clean uid idxStart idxEnd => exact .map (bioOps_keeps communityOpsClean_leads)
  | rename uid idx newName => exact .map bioOpsFeatureRename_keeps
  | getFeatureList uid idxStart idxEnd =>
    exact .map (bioOps_keeps communityOpsGetFeatureList_leads)

/-- What a driver keeps, the daemon keeps. -/
theorem Daemon.onDriver_leads {α : Type} {i : ℕ} {p : Driver π α}
    (hp : p.Leads (fun w => KeepsOthers U db₀ w.store.db)
      (fun w => KeepsOthers U db₀ w.store.db)) :
    (Daemon.onDriver i p).Leads (fun d => KeepsOthers U db₀ d.store.db)
      (fun d => KeepsOthers U db₀ d.store.db) := by
  intro d es h
  unfold Daemon.onDriver
  cases hw : d.driver i with
  | none => exact h
  | some w =>
    have hstart : KeepsOthers U db₀ w.store.db := by
      obtain ⟨w₀, -, rfl⟩ := Option.map_eq_some_iff.mp hw
      exact h
    have hend := hp w es hstart
    simp only
    cases hrun : p w es with
    | ret a w' es' | waiting w' | crashed w' =>
      rw [hrun] at hend
      exact hend

theorem gdbusCleanBySingleDev_leads {busy : ℤ → Bool} {i : ℕ} {uid idxStart idxEnd : ℤ} :
    (gdbusCleanBySingleDev fp busy i uid idxStart idxEnd).Leads
      (fun d : Daemon π => KeepsOthers (usersOf uid) db₀ d.store.db)
      (fun d => KeepsOthers (usersOf uid) db₀ d.store.db) := by
  refine .get_bind fun d h => ?_
  have hstay : ∀ d', d' = d → KeepsOthers (usersOf uid) db₀ d'.store.db := fun d' hd' => hd' ▸ h
  cases d.driver i with
  | none => exact .pure hstay
  | some w =>
    refine .ite (fun _ => .pure hstay) fun _ => .ite (fun _ => .pure hstay) fun _ => ?_
    refine (Daemon.onDriver_leads ?_).mono hstay fun _ h => h
    refine (bioOps_keeps communityOpsClean_leads).bind fun _ => .get_bind fun w h => .pure ?_
    rintro _ rfl
    exact h

theorem cleanDrivers_leads {busy : ℤ → Bool} {uid idxStart idxEnd : ℤ} (is : List ℕ) (ret : ℤ) :
    (cleanDrivers fp busy uid idxStart idxEnd is ret).Leads
      (fun d : Daemon π => KeepsOthers (usersOf uid) db₀ d.store.db)
      (fun d => KeepsOthers (usersOf uid) db₀ d.store.db) := by
  induction is generalizing ret with
  | nil => exact .pure fun _ h => h
  | cons i is ih => exact gdbusCleanBySingleDev_leads.bind fun singleRet => ih _

theorem cleanAll_leads {busy : ℤ → Bool} {uid idxStart idxEnd : ℤ} :
    (cleanAll fp busy uid idxStart idxEnd).Leads
      (fun d : Daemon π => KeepsOthers (usersOf uid) db₀ d.store.db)
      (fun d => KeepsOthers (usersOf uid) db₀ d.store.db) := by
  refine .get_bind fun d h => ?_
  refine ((cleanDrivers_leads _ 0).mono (fun d' hd' => hd' ▸ h) fun _ h => h).bind fun ret => ?_
  refine .get_bind fun d h => ?_
  have hclean := KeepsOthers.clean (q := ⟨uid, -1, none, idxStart, idxEnd⟩) h
  exact .modify_bind (R := fun d : Daemon π => KeepsOthers (usersOf uid) db₀ d.store.db)
    (fun _ _ => hclean) (.pure fun _ h => h)

theorem serveDriver_leads {call : Call} :
    (serveDriver fp call).Leads
      (fun d : Daemon π => KeepsOthers call.request.users db₀ d.store.db)
      (fun d => KeepsOthers call.request.users db₀ d.store.db) := by
  refine .get_bind fun d h => ?_
  have hstay : ∀ d', d' = d → KeepsOthers call.request.users db₀ d'.store.db := fun d' hd' =>
    hd' ▸ h
  cases d.getDevByDrvid call.drvid with
  | none => exact .pure hstay
  | some i =>
    refine .ite (fun _ => .pure hstay) fun _ => (Daemon.onDriver_leads ?_).mono hstay fun _ h => h
    refine (Request.run_keeps call.request).bind fun value => .get_bind fun w h => .pure ?_
    rintro _ rfl
    exact h

/-- A call changes the rows its request is about at most. -/
theorem Call.serve_leads {call : Call} :
    (call.serve fp).Leads (fun d : Daemon π => KeepsOthers call.request.users db₀ d.store.db)
      (fun d => KeepsOthers call.request.users db₀ d.store.db) := by
  refine .ite (fun _ => .pure fun _ h => h) fun _ => ?_
  obtain ⟨drvid, request, caller, busy⟩ := call
  cases request with
  | clean uid idxStart idxEnd =>
    refine .ite (fun _ => cleanAll_leads.bind fun ret => .pure fun _ h => h) fun _ => ?_
    exact serveDriver_leads
  | _ => exact serveDriver_leads

/-- One call. -/
theorem authorised_of_not_gap {d : Daemon π} {call : Call × List (List (Event π))}
    (hgap : ¬ call.1.Gap) : Authorised fp d call := by
  rintro d' hd'
  obtain rfl := Option.some.inj hd'
  obtain ⟨call, es⟩ := call
  cases hauth : call.caller.authRet call.request with
  | false =>
    -- a call that is denied changes nothing
    have hdenied : (call.serve fp d es).state = d := by
      simp only [Call.serve, hauth, if_true]
      rfl
    exact ⟨fun u hu => absurd (by rw [hdenied]) hu, fun _ => hdenied⟩
  | true =>
    -- a call that is authorised changes rows of the users that it names only
    refine ⟨fun u hu => ?_, nofun⟩
    have hkeeps : KeepsOthers call.request.users d.store.db (call.serve fp d es).state.store.db :=
      Call.serve_leads d es (KeepsOthers.refl call.request.users d.store.db)
    have hmem : u ∈ call.request.users := by
      by_contra hnot
      exact hu (hkeeps u hnot)
    cases hactions : call.request.actions with
    | none =>
      -- a request without actions names no user
      have hnone : call.request.users = ∅ := by
        cases hrequest : call.request <;> rw [hrequest] at hactions <;>
          first | rfl | cases hactions
      rw [hnone] at hmem
      exact hmem.elim
    | some actions =>
      obtain ⟨uid, own, admin⟩ := actions
      refine ⟨uid, own, admin, hactions, ?_⟩
      -- the check has looked at the user's own action if the uid is the caller's, else at the
      -- administrator's
      simp only [Caller.authRet, hactions] at hauth
      by_cases hadmin : call.caller.isAuthorised admin = true
      · exact Or.inr hadmin
      · left
        split at hauth
        next huid =>
          -- the own action was granted: outside the gap the rows are those of the caller
          by_contra hnot
          refine hgap ⟨uid, own, admin, hactions, hauth, by simpa using hadmin, huid, ?_⟩
          cases hcaller : call.caller.uid with
          | none => exact Or.inl rfl
          | some callerUid =>
            refine Or.inr ⟨u, hmem, fun hu => hnot ⟨callerUid, hcaller, ?_, hu, hauth⟩⟩
            rw [hu, ← huid, Caller.authUid, hcaller]
        next => exact absurd hauth hadmin

/-- **Only authorised requests change biometric data.** In every run of calls none of which
falls into the gap. -/
theorem along_authorised (d₀ : Daemon π) (calls : List (Call × List (List (Event π))))
    (h : Machine.Along (Daemon.step fp) (fun _ call => ¬ call.1.Gap) d₀ calls) :
    Machine.Along (Daemon.step fp) (Authorised fp) d₀ calls :=
  h.imp fun _ _ hgap => authorised_of_not_gap hgap

end Serve

/-! ### A caller without a uid -/

/-- No device is connected; user `0` has one feature. -/
def rootDaemon : Daemon Bytes where
  drivers := []
  devList := []
  store := ⟨EigenInfo.empty.insert 0 "" 0 "uru4000" 0 "a" 3 [84, 76, 110, 78], []⟩
  uuidOf _ := ""

/-- Clean all drivers of the features of user `0`, by a caller who may change his own data. -/
def cleanRoot (uid : Option UInt32) : Call where
  drvid := -1
  request := .clean 0 0 (-1)
  caller := ⟨uid, fun action => action == .cleanOwn⟩
  busy _ := false

/-- The lookup fails, and the features are gone. -/
theorem not_along_authorised :
    ¬ Machine.Along (Daemon.step bytesLibfprint) (Authorised bytesLibfprint) rootDaemon
      [(cleanRoot none, [])] := by
  rintro ⟨h, -⟩
  obtain ⟨hrows, -⟩ := h _ rfl
  obtain ⟨uid, own, admin, hactions, hmay⟩ := hrows 0 (by decide)
  cases hactions
  rcases hmay with ⟨callerUid, hcaller, -⟩ | hadmin
  · cases hcaller
  · cases hadmin

/-- User `0` himself clears them. -/
theorem along_authorised_root :
    Machine.Along (Daemon.step bytesLibfprint) (Authorised bytesLibfprint) rootDaemon
      [(cleanRoot (some 0), [])] := by
  refine along_authorised rootDaemon _ ⟨?_, fun _ _ => trivial⟩
  rintro ⟨uid, own, admin, hactions, -, -, -, hcaller | ⟨u, hu, hne⟩⟩
  · cases hcaller
  · cases hactions
    exact hne (hu.resolve_left (by decide))

end BiometricAuth
