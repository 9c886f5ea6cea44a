import BiometricAuth.Daemon.Bodies

/-!
# Absent and busy devices

What the handlers of requests reply when no device of the list has the driver id that they are
asked for, and when its mutex is held. Each handler has its own reply for the two, and clients tell
them by the sign of the number.

Main result: `toldApart_iff` — a request tells an absent and a busy device from an empty result,
and runs nothing on either, unless it is a GetFeatureList.
-/

namespace BiometricAuth

/-! ### The list of devices -/

/-- The loop of `get_dev_by_drvid`: `dev` is the last device that it has looked at. -/
def devLoop (drvid : ℤ) : List BioDev → Option BioDev → Option BioDev
  | [], dev => dev
  | d :: rest, _ => if d.driverId = drvid then some d else devLoop drvid rest (some d)

/-- `get_dev_by_drvid`. The loop ends with a device in any case, so that its id is compared once
more. -/
def getDevByDrvid (devList : List BioDev) (drvid : ℤ) : Option BioDev :=
  if devList = [] then none
  else
    (devLoop drvid devList none).bind fun dev => if dev.driverId = drvid then some dev else none

/-- It is a search for the first device with the id: the last one of the list is no exception. -/
theorem getDevByDrvid_eq_find? (devList : List BioDev) (drvid : ℤ) :
    getDevByDrvid devList drvid = devList.find? fun dev => dev.driverId = drvid := by
  -- the loop stops at the first match, or leaves the last device, which the test after it sees
  have hloop : ∀ dev : Option BioDev, (∀ d ∈ dev, d.driverId ≠ drvid) →
      ((devLoop drvid devList dev).bind fun dev =>
        if dev.driverId = drvid then some dev else none) =
        devList.find? fun dev => dev.driverId = drvid := by
    induction devList with
    | nil =>
      intro dev hdev
      cases dev with
      | none => rfl
      | some d => exact if_neg (hdev d rfl)
    | cons d rest ih =>
      intro dev hdev
      rw [devLoop, List.find?_cons]
      by_cases hd : d.driverId = drvid
      · -- found: the test after the loop sees this device
        simp [hd]
      · -- not found: the rest of the list decides, as this device has another id
        rw [if_neg hd, decide_eq_false hd]
        exact ih (some d) fun d' hd' => Option.some.inj hd' ▸ hd
  unfold getDevByDrvid
  split
  · next hnil => rw [hnil, List.find?_nil]
  · exact hloop none fun d hd => by cases hd

/-- What the handlers find, in terms of the loop. -/
theorem Encounter.getDevByDrvid_eq_loop (e : Encounter) (drvid : ℤ) :
    e.getDevByDrvid drvid = BiometricAuth.getDevByDrvid e.devList drvid :=
  (getDevByDrvid_eq_find? e.devList drvid).symm

/-! ### Refusals -/

/-- GetFeatureList, whose handler replies a count of its own. -/
def Request.IsGetFeatureList : Request → Prop
  | .getFeatureList .. => True
  | _ => False

/-- The handler replies the code `ret`, once. It neither runs an operation nor changes a status:
of the mutexes it only tries one, and the outcome of the operation does not matter. -/
structure RefusedWith (e : Encounter) (call : DBusCall) (ret : ℤ) : Prop where
  replies : ∃ reply : Reply, call.completions e = [.reply reply] ∧ reply.ret = ret
  events : ∀ event ∈ call.body e, event.completion?.isSome ∨ ∃ i, event = .tryLock i
  outcome : ∀ outcome, call.body { e with outcome } = call.body e

/-- An absent device and a busy one are refused with codes of their own. -/
def ToldApart (e : Encounter) (drvid : ℤ) (request : Request) : Prop :=
  ((∀ dev ∈ e.devList, dev.driverId ≠ drvid) →
      RefusedWith e (.ofRequest drvid request) (-retNoSuchDevice)) ∧
    ((∃ dev ∈ e.devList, dev.driverId = drvid) → e.isFree drvid = false →
      RefusedWith e (.ofRequest drvid request) (-retDeviceBusy))

/-- A refusal has the code it is refused with, except that a list of features is said to be
empty. -/
theorem Request.refused_ret (request : Request) (ret : ℤ) :
    (request.refused ret).ret = -ret ∨
      request.IsGetFeatureList ∧ (request.refused ret).ret = 0 := by
  cases request with
  | getFeatureList uid idxStart idxEnd => exact .inr ⟨trivial, rfl⟩
  | _ => exact .inl rfl

section Bodies

variable {e : Encounter} {drvid : ℤ} {request : Request}

/-- A request that is authorised, or need not be, is not turned away. -/
theorem not_denied (hauth : request.actions.isSome → e.authRet = true) :
    ¬ (request.actions.isSome ∧ e.authRet = false) := by
  rintro ⟨hactions, hdenied⟩
  rw [hauth hactions] at hdenied
  cases hdenied

/-- The handler, once it is authorised and the device is not there. -/
theorem body_of_absent (hauth : request.actions.isSome → e.authRet = true)
    (hsingle : ∀ uid idxStart idxEnd, request = .clean uid idxStart idxEnd → drvid ≠ -1)
    (hdev : e.getDevByDrvid drvid = none) :
    (DBusCall.ofRequest drvid request).body e =
      [.complete (.reply (request.refused retNoSuchDevice))] := by
  have hallowed := not_denied hauth
  have hserve : e.serve drvid request = [.complete (.reply (request.refused retNoSuchDevice))] := by
    rw [Encounter.serve, hdev]
  cases request with
  | clean uid idxStart idxEnd =>
    have hclean : e.clean drvid = ([], -retNoSuchDevice) := by
      rw [Encounter.clean, if_pos (hsingle uid idxStart idxEnd rfl), hdev]
      rfl
    refine (if_neg hallowed).trans ?_
    show (e.clean drvid).1 ++ [.complete (.reply (.code (e.clean drvid).2))] = _
    rw [hclean]
    rfl
  | _ =>
    simp only [DBusCall.body, hallowed, if_false]
    exact hserve

/-- The handler, once it is authorised and the mutex is held. -/
theorem body_of_busy (hauth : request.actions.isSome → e.authRet = true)
    (hsingle : ∀ uid idxStart idxEnd, request = .clean uid idxStart idxEnd → drvid ≠ -1)
    {dev : BioDev} (hdev : e.getDevByDrvid drvid = some dev) (hbusy : e.isFree drvid = false) :
    (DBusCall.ofRequest drvid request).body e =
      [.tryLock drvid, .complete (.reply (request.refused retDeviceBusy))] := by
  have hallowed := not_denied hauth
  have hserve : e.serve drvid request =
      [.tryLock drvid, .complete (.reply (request.refused retDeviceBusy))] := by
    rw [Encounter.serve, hdev]
    simp only [hbusy, if_true]
  cases request with
  | clean uid idxStart idxEnd =>
    -- the mutex is that of the device found, which has the id asked for
    have hid : dev.driverId = drvid := (e.getDevByDrvid_eq hdev).1
    have hclean : e.clean drvid = ([.tryLock drvid], -retDeviceBusy) := by
      rw [Encounter.clean, if_pos (hsingle uid idxStart idxEnd rfl), hdev,
        Encounter.cleanBySingleDev]
      simp only [hid, hdev, reduceCtorEq, if_false, hbusy, if_true]
    refine (if_neg hallowed).trans ?_
    show (e.clean drvid).1 ++ [.complete (.reply (.code (e.clean drvid).2))] = _
    rw [hclean]
    rfl
  | _ =>
    simp only [DBusCall.body, hallowed, if_false]
    exact hserve

end Bodies

/-- A body that is a refusal, and would be with any outcome. -/
theorem refusedWith_iff (e : Encounter) (drvid : ℤ) (request : Request) {ret : ℤ}
    (hpos : 0 < ret) {lock : List HandlerEvent} (hlock : lock = [] ∨ lock = [.tryLock drvid])
    (hbody : ∀ outcome, (DBusCall.ofRequest drvid request).body { e with outcome } =
      lock ++ [.complete (.reply (request.refused ret))]) :
    RefusedWith e (.ofRequest drvid request) (-ret) ↔ ¬ request.IsGetFeatureList := by
  -- the body completes once, with the refusal
  have hown : (DBusCall.ofRequest drvid request).body e =
      lock ++ [.complete (.reply (request.refused ret))] := hbody e.outcome
  have hcompletions : (DBusCall.ofRequest drvid request).completions e =
      [.reply (request.refused ret)] := by
    rw [DBusCall.completions, hown]
    rcases hlock with rfl | rfl <;> rfl
  constructor
  · -- a list of features has no code for a refusal, and replies 0
    rintro ⟨⟨reply, hreply, hret⟩, -, -⟩ hlist
    rw [hcompletions] at hreply
    obtain rfl : request.refused ret = reply := by
      simpa using hreply
    cases request with
    | getFeatureList uid idxStart idxEnd =>
      have hzero : (0 : ℤ) = -ret := hret
      omega
    | _ => exact hlist
  · -- the other requests reply with the code, and do nothing but take the lock
    intro hlist
    refine ⟨⟨_, hcompletions, ?_⟩, ?_, fun outcome => by rw [hbody, hown]⟩
    · rcases request.refused_ret ret with hret | ⟨hget, -⟩
      · exact hret
      · exact absurd hget hlist
    · rw [hown]
      rintro event hevent
      rcases hlock with rfl | rfl <;> simp at hevent
      · exact .inl (by rw [hevent]; rfl)
      · rcases hevent with rfl | rfl
        · exact .inr ⟨drvid, rfl⟩
        · exact .inl rfl

/-- Absence and contention are told apart from an empty result, unless a list of features is asked
for and cannot be had. -/
theorem toldApart_iff (e : Encounter) (drvid : ℤ) (request : Request)
    (hauth : request.actions.isSome → e.authRet = true)
    (hsingle : ∀ uid idxStart idxEnd, request = .clean uid idxStart idxEnd → drvid ≠ -1) :
    ToldApart e drvid request ↔ ¬ request.IsGetFeatureList ∨
      (∃ dev ∈ e.devList, dev.driverId = drvid) ∧ e.isFree drvid = true := by
  cases hdev : e.getDevByDrvid drvid with
  | none =>
    -- no such device: the request is refused at once
    have habsent : ∀ dev ∈ e.devList, dev.driverId ≠ drvid := by
      simpa [Encounter.getDevByDrvid] using hdev
    have hnone : ¬ ∃ dev ∈ e.devList, dev.driverId = drvid := fun ⟨dev, hmem, hid⟩ =>
      habsent dev hmem hid
    have hrefused := refusedWith_iff e drvid request (show 0 < retNoSuchDevice by decide)
      (.inl rfl) fun outcome => body_of_absent (e := { e with outcome }) hauth hsingle hdev
    unfold ToldApart
    simp only [hnone, false_and, or_false, IsEmpty.forall_iff, and_true]
    exact ⟨fun h => hrefused.mp (h habsent), fun h _ => hrefused.mpr h⟩
  | some dev =>
    -- the device is there, and what is left is whether it can be locked
    obtain ⟨hid, hmem⟩ := e.getDevByDrvid_eq hdev
    have hlisted : ∃ dev ∈ e.devList, dev.driverId = drvid := ⟨dev, hmem, hid⟩
    have habsent : ¬ ∀ dev ∈ e.devList, dev.driverId ≠ drvid := fun h => h dev hmem hid
    unfold ToldApart
    simp only [hlisted, habsent, IsEmpty.forall_iff, true_and, forall_const]
    cases hfree : e.isFree drvid with
    | true => simp
    | false =>
      -- it is busy, and the request is refused after the lock was tried
      have hrefused := refusedWith_iff e drvid request (show 0 < retDeviceBusy by decide)
        (.inr rfl) fun outcome => body_of_busy (e := { e with outcome }) hauth hsingle hdev hfree
      simpa using hrefused

/-- A Verify on a device that nobody has. -/
theorem toldApart_verify : ToldApart noMatchEncounter 7 (.verify 1000 0) :=
  (toldApart_iff noMatchEncounter 7 (.verify 1000 0) (fun _ => rfl)
    (fun uid idxStart idxEnd h => by cases h)).mpr (.inl id)

/-- A GetFeatureList on a device that nobody has counts no features. -/
theorem not_toldApart : ¬ ∀ (e : Encounter) (drvid : ℤ) (request : Request),
    (request.actions.isSome → e.authRet = true) →
      (∀ uid idxStart idxEnd, request = .clean uid idxStart idxEnd → drvid ≠ -1) →
        ToldApart e drvid request := by
  intro hall
  have habsent := (hall noMatchEncounter 7 (.getFeatureList 1000 0 (-1)) (fun _ => rfl)
    fun uid idxStart idxEnd h => by cases h).1 (by decide)
  obtain ⟨reply, hreply, hret⟩ := habsent.replies
  have hcount : (DBusCall.ofRequest 7 (.getFeatureList 1000 0 (-1))).completions noMatchEncounter =
      [.reply (.flist 0 [])] := by decide
  rw [hcount] at hreply
  obtain rfl : Reply.flist 0 [] = reply := by simpa using hreply
  exact absurd hret (by decide)

end BiometricAuth
