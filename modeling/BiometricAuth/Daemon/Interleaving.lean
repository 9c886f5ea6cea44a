import BiometricAuth.Daemon.Sequential

/-!
# Concurrent requests on one device

Any number of clients, each with a request of its own, one thread each. The threads
take turns at their steps: look the device up, try to lock its mutex, run the
operation, unlock, read `ops_result` off the device, reply. The mutex is held only
while the operation runs; the result is read after it has been released.

Main results:

* `always_ownResult`: in every run in which no operation runs between a client's
  unlock and its read, the replies are made of the client's own result;
* `not_always_ownResult`: a Verify that found no match is told that it matched, when
  another client's Verify comes in between.
-/

namespace BiometricAuth

open Process

/-- How far the thread of a request is. Next to what the thread knows, it keeps the result
its own operation has left on the device (`own`), which the thread does not look at. -/
inductive Phase
  | started
  | found
  | locked
  | ran (value : OpValue) (own : ℤ)
  | unlocked (value : OpValue) (own : ℤ)
  | read (value : OpValue) (own opsResult : ℤ)
  /-- The request was refused, and never ran. -/
  | refused (reply : Reply)
  | replied (value : OpValue) (own : ℤ) (replies : List Reply)
deriving DecidableEq

/-- The device, its mutex and the threads. -/
structure Threads (C π : Type) where
  world : World π
  /-- Who holds `dev_dbus_mutex[drvid]`. -/
  holder : Option C
  phase : C → Phase

/-- A step of one thread. -/
inductive ThreadStep (C π : Type)
  /-- The authorisation the request asks for is denied. -/
  | deny (c : C)
  /-- `get_dev_by_drvid`, which finds the device or does not. -/
  | lookUp (c : C) (found : Bool)
  /-- `pthread_mutex_trylock`. -/
  | tryLock (c : C)
  /-- `bio_ops_*`, by a schedule. -/
  | run (c : C) (schedule : List (List (Event π)))
  /-- `pthread_mutex_unlock`. -/
  | unlock (c : C)
  /-- `bio_get_ops_result`. -/
  | read (c : C)
  | reply (c : C)

section Threads

variable {C π : Type} [DecidableEq C] (fp : Libfprint π) (request : C → Request)

namespace Threads

/-- Thread `c` moves on. -/
def setPhase (s : Threads C π) (c : C) (phase : Phase) : Threads C π :=
  { s with phase := Function.update s.phase c phase }

/-- All threads are started and the device is free. -/
def init (w : World π) : Threads C π where
  world := w
  holder := none
  phase _ := .started

/-- One step; `none` where the thread is not at it. -/
def step (s : Threads C π) : ThreadStep C π → Option (Threads C π)
  | .deny c =>
    if s.phase c = .started ∧ (request c).actions.isSome then
      some (s.setPhase c (.refused (.code (-retPermissionDenied))))
    else none
  | .lookUp c found =>
    if s.phase c = .started then
      some (s.setPhase c
        (if found then .found else .refused ((request c).refused retNoSuchDevice)))
    else none
  | .tryLock c =>
    if s.phase c = .found then
      if s.holder = none then some { s.setPhase c .locked with holder := some c }
      else some (s.setPhase c (.refused ((request c).refused retDeviceBusy)))
    else none
  | .run c schedule =>
    if s.phase c = .locked then
      match (request c).run fp s.world schedule with
      | .ret value w _ => some { s.setPhase c (.ran value w.dev.opsResult) with world := w }
      | _ => none
    else none
  | .unlock c =>
    match s.phase c with
    | .ran value own => some { s.setPhase c (.unlocked value own) with holder := none }
    | _ => none
  | .read c =>
    match s.phase c with
    | .unlocked value own => some (s.setPhase c (.read value own s.world.dev.opsResult))
    | _ => none
  | .reply c =>
    match s.phase c with
    | .read value own opsResult =>
      some (s.setPhase c (.replied value own ((request c).replies value opsResult)))
    | _ => none

end Threads

/-- Every reply is made of the result the client's own operation has left; a Verify is told
that it matched only if its own result is a match. -/
def OwnResult (s : Threads C π) : Prop :=
  ∀ c value own replies, s.phase c = .replied value own replies →
    replies = (request c).replies value own ∧
      ∀ uid idx, request c = .verify uid idx → Reply.code (-retOpsSuccess) ∈ replies →
        own = opsVerifyMatch

/-- No operation is run while a client has unlocked the device and not yet read its result. -/
def ReadsFirst (s : Threads C π) : ThreadStep C π → Prop
  | .run _ _ => ∀ c value own, s.phase c ≠ .unlocked value own
  | _ => True

/-! ### The invariant -/

/-- What is known about a client in a phase. -/
def PhaseOk (s : Threads C π) (c : C) : Phase → Prop
  | .locked => s.holder = some c
  | .ran _ own => s.holder = some c ∧ s.world.dev.opsResult = own
  | .unlocked _ own => s.world.dev.opsResult = own
  | .read _ own opsResult => opsResult = own
  | .replied value own replies => replies = (request c).replies value own
  | _ => True

/-- Every client is in order. -/
def ThreadsInv (s : Threads C π) : Prop := ∀ c, PhaseOk request s c (s.phase c)

variable {fp request} {s s' : Threads C π}

/-- A thread moves on, and the others do not mind. -/
theorem ThreadsInv.setPhase (h : ThreadsInv request s) {c : C} {phase : Phase}
    (hphase : s'.phase = Function.update s.phase c phase) (hc : PhaseOk request s' c phase)
    (hothers : ∀ c', c' ≠ c → PhaseOk request s c' (s.phase c') →
      PhaseOk request s' c' (s.phase c')) : ThreadsInv request s' := by
  intro c'
  rw [hphase]
  by_cases hcc : c' = c
  · rw [hcc, Function.update_self]
    exact hc
  · rw [Function.update_of_ne hcc]
    exact hothers c' hcc (h c')

/-- Where neither the mutex nor the device changes, the others do not mind. -/
theorem ThreadsInv.setPhase_of_eq (h : ThreadsInv request s) {c : C} {phase : Phase}
    (hc : PhaseOk request s c phase) : ThreadsInv request (s.setPhase c phase) := by
  refine h.setPhase rfl ?_ fun c' _ hc' => ?_
  · cases phase <;> exact hc
  · generalize s.phase c' = phase' at hc'
    cases phase' <;> exact hc'

omit [DecidableEq C] in
/-- The thread that holds the mutex lets the others keep what they have, whatever it does
to the mutex. -/
theorem PhaseOk.of_holder {c c' : C} {phase : Phase} (hcc : c' ≠ c)
    (hholder : s.holder = some c ∨ s.holder = none) (hworld : s'.world = s.world)
    (h : PhaseOk request s c' phase) : PhaseOk request s' c' phase := by
  have hne : s.holder ≠ some c' := by
    rcases hholder with hholder | hholder
    · rw [hholder]
      exact fun heq => hcc (Option.some.inj heq).symm
    · rw [hholder]
      exact nofun
  cases phase with
  | locked => exact absurd h hne
  | ran value own => exact absurd h.1 hne
  | unlocked value own =>
    change s'.world.dev.opsResult = own
    rw [hworld]
    exact h
  | started | found | read | refused | replied => exact h

omit [DecidableEq C] in
/-- Nobody is reading while an operation runs: what the others know has nothing to do with
the device. -/
theorem PhaseOk.of_run {c c' : C} {phase : Phase} (hcc : c' ≠ c) (hholder : s.holder = some c)
    (hreads : ∀ value own, phase ≠ .unlocked value own) (h : PhaseOk request s c' phase) :
    PhaseOk request s' c' phase := by
  have hne : s.holder ≠ some c' := by
    rw [hholder]
    exact fun heq => hcc (Option.some.inj heq).symm
  cases phase with
  | locked => exact absurd h hne
  | ran value own => exact absurd h.1 hne
  | unlocked value own => exact absurd rfl (hreads value own)
  | started | found | read | refused | replied => exact h

/-- One step. -/
theorem ThreadsInv.step (h : ThreadsInv request s) {a : ThreadStep C π} (ha : ReadsFirst s a)
    (hs' : s.step fp request a = some s') : ThreadsInv request s' := by
  -- each step of a thread is looked at for itself; the others are only concerned by the lock
  cases a with
  | deny c =>
    obtain ⟨-, hs'⟩ := Option.ite_none_right_eq_some.mp hs'
    obtain rfl := Option.some.inj hs'
    exact h.setPhase_of_eq trivial
  | lookUp c found =>
    obtain ⟨-, hs'⟩ := Option.ite_none_right_eq_some.mp hs'
    obtain rfl := Option.some.inj hs'
    cases found <;> exact h.setPhase_of_eq trivial
  | tryLock c =>
    -- the lock is free, or the request is told that the device is busy
    obtain ⟨-, hs'⟩ := Option.ite_none_right_eq_some.mp hs'
    split at hs'
    next hfree =>
      obtain rfl := Option.some.inj hs'
      exact h.setPhase rfl rfl fun c' hcc => PhaseOk.of_holder hcc (Or.inr hfree) rfl
    next =>
      obtain rfl := Option.some.inj hs'
      exact h.setPhase_of_eq trivial
  | run c schedule =>
    -- the thread runs with the lock, and no other has a result to read then
    obtain ⟨hlocked, hs'⟩ := Option.ite_none_right_eq_some.mp hs'
    have hholder : s.holder = some c := by
      have hc := h c
      rwa [hlocked] at hc
    split at hs'
    next value w es' hrun =>
      obtain rfl := Option.some.inj hs'
      exact h.setPhase rfl ⟨hholder, rfl⟩ fun c' hcc => PhaseOk.of_run hcc hholder (ha c')
    next => cases hs'
  | unlock c =>
    -- it gives the lock back, and its result is the one that is there
    simp only [Threads.step] at hs'
    split at hs'
    next value own hran =>
      have hc := h c
      rw [hran] at hc
      obtain rfl := Option.some.inj hs'
      exact h.setPhase rfl hc.2 fun c' hcc => PhaseOk.of_holder hcc (Or.inl hc.1) rfl
    next => cases hs'
  | read c =>
    -- it reads the result that is there, which no other has changed since
    simp only [Threads.step] at hs'
    split at hs'
    next value own hunlocked =>
      have hc := h c
      rw [hunlocked] at hc
      obtain rfl := Option.some.inj hs'
      exact h.setPhase_of_eq hc
    next => cases hs'
  | reply c =>
    -- it replies with the result it has read
    simp only [Threads.step] at hs'
    split at hs'
    next value own opsResult hread =>
      have hc : opsResult = own := by
        have hc := h c
        rwa [hread] at hc
      obtain rfl := Option.some.inj hs'
      exact h.setPhase_of_eq (congrArg _ hc)
    next => cases hs'

omit [DecidableEq C] in
theorem threadsInv_init (w : World π) : ThreadsInv request (Threads.init w : Threads C π) :=
  fun _ => trivial

omit [DecidableEq C] in
/-- What the invariant says of a reply. -/
theorem ThreadsInv.ownResult (h : ThreadsInv request s) : OwnResult request s := by
  intro c value own replies hphase
  have hc := h c
  rw [hphase] at hc
  obtain rfl : replies = (request c).replies value own := hc
  refine ⟨rfl, fun uid idx hverify hsuccess => ?_⟩
  rw [hverify] at hsuccess
  simp only [Request.replies, List.mem_singleton, Reply.code.injEq] at hsuccess
  exact matchCode_eq_success hsuccess.symm

variable (fp request)

/-- **Every client gets its own result.** In every run of any number of threads, as long as no
operation runs between a client's unlock and its read. -/
theorem always_ownResult (w : World π) (steps : List (ThreadStep C π))
    (h : Machine.Along (Threads.step fp request) ReadsFirst (Threads.init w) steps) :
    Machine.Always (Threads.step fp request) (OwnResult request) (Threads.init w) steps :=
  (h.always (fun _ _ _ hs ha hs' => hs.step ha hs') (threadsInv_init w)).mono
    fun _ hs => hs.ownResult

end Threads

/-! ### The wrong client -/

/-- What libfprint does in a Verify that comes to `report`. -/
def verifySchedule (report : MatchReport Bytes) : List (List (Event Bytes)) :=
  [[.deviceOpened true], [.matchReport report, .verifyCompleted], [.deviceClosed]]

/-- Two clients verify; the second one's operation comes between the unlock of the first and its
read. -/
def interleavedVerifies : List (ThreadStep Bool Bytes) :=
  [.lookUp false true, .tryLock false, .run false (verifySchedule .noMatch), .unlock false,
    .lookUp true true, .tryLock true, .run true (verifySchedule (.matched [1, 2, 3])),
    .read false, .reply false]

/-- The first client's finger did not match, and it is told that it did. -/
theorem not_always_ownResult :
    ¬ Machine.Always (Threads.step bytesLibfprint fun _ => .verify 1000 0)
      (OwnResult fun _ => .verify 1000 0) (Threads.init enrolledWorld) interleavedVerifies := by
  intro h
  have hphase : (Machine.run (Threads.step bytesLibfprint fun _ => .verify 1000 0)
      (Threads.init enrolledWorld) interleavedVerifies).map (fun s => s.phase false) =
        some (.replied (.ret 0) opsVerifyNoMatch [.code 0]) := by decide +kernel
  obtain ⟨s, hrun, hphase⟩ := Option.map_eq_some_iff.mp hphase
  have hown := (h.run hrun false (.ret 0) opsVerifyNoMatch [.code 0] hphase).2 1000 0 rfl (by simp)
  exact absurd hown (by decide)

/-- The same two clients; the second one finds the device busy. -/
theorem always_ownResult_busy :
    Machine.Always (Threads.step bytesLibfprint fun _ => .verify 1000 0)
      (OwnResult fun _ => .verify 1000 0) (Threads.init enrolledWorld)
      [.lookUp false true, .tryLock false, .lookUp true true, .tryLock true,
        .run false (verifySchedule .noMatch), .unlock false, .read false, .reply false] := by
  refine always_ownResult bytesLibfprint (fun _ => .verify 1000 0) enrolledWorld _ ?_
  simp [Machine.Along, ReadsFirst, Threads.step, Threads.init, Threads.setPhase]

end BiometricAuth
