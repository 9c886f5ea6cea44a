import BiometricAuth.Driver.Release

/-!
# Stop requests and completions

The thread that runs an operation of the driver (`Worker`), libfprint's thread with the
completion callback (`Callback`) and any number of threads in `community_ops_stop_by_user`
(`Stopper`) share `asyn_flag`, `ctrlFlag` and `dev_status`. Here every assignment to one of
them is a step of its own, and so is every look at one of them.

A stop request sets `asyn_flag` to `ASYN_FALG_RUNNING` before it sets `ctrlFlag`. When the
completion callback has set `ASYN_FLAG_DONE` just before and the worker has not looked yet, the
completion is lost, and the worker polls for ever with the mutex of the device held.

Main results:

* `Race.always_completionSeen_iff`: in a run, the worker can always see a completion that has
  happened, exactly if no stop request assigns `asyn_flag` between a completion and the
  worker's look, and no completion callback forgets the flag;
* `Race.leaves`, `Race.always_polls`: a worker that can see the completion leaves its loop after
  at most four steps, one that cannot never leaves it.
-/

namespace BiometricAuth

/-! ### The flags -/

/-- The flags the threads share. -/
structure Flags where
  asynFlag : AsynFlag
  ctrlFlag : CtrlFlag
  devStatus : ℤ
deriving DecidableEq, Repr

/-- The flags as the driver holds them. -/
def World.flags {π : Type} (w : World π) : Flags :=
  ⟨w.priv.asynFlag, w.priv.ctrlFlag, w.dev.devStatus⟩

/-- An assignment to one of them. -/
inductive Assign
  | asyn (flag : AsynFlag)
  | ctrl (flag : CtrlFlag)
  | status (status : ℤ)
deriving DecidableEq, Repr

/-- The flags after an assignment. -/
def Flags.assign (flags : Flags) : Assign → Flags
  | .asyn flag => { flags with asynFlag := flag }
  | .ctrl flag => { flags with ctrlFlag := flag }
  | .status status => { flags with devStatus := status }

/-! ### The worker -/

/-- What a step of the driver assigns before it calls libfprint; in a search, before each of
its calls. -/
def assignsBefore : Async → List Assign
  | .deviceOpen => [.asyn .running, .ctrl .running, .status devsOpenDoing]
  | .deviceClose => [.asyn .running]
  | .deviceCapture => [.status devsCaptureDoing, .asyn .running]
  | .deviceEnroll => [.status devsEnrollDoing, .asyn .running]
  | .deviceVerify => [.status devsVerifyDoing, .asyn .running]
  | .deviceIdentify => [.status opsTypeIdentify, .asyn .running]
  | .deviceSearch => [.asyn .running]

/-- What it assigns after its loop has ended with the operation. -/
def assignsAfter : Async → List Assign
  | .deviceEnroll => []
  | .deviceClose => [.ctrl .idle]
  | _ => [.status devsCommIdle]

/-- Open and close do not look at `ctrlFlag`. -/
def looksAtCtrlFlag : Async → Bool
  | .deviceOpen | .deviceClose => false
  | _ => true

/-- Where the worker is. -/
inductive Worker
  /-- It holds no device. -/
  | free
  /-- `todo` is to be assigned before libfprint is called. -/
  | prepare (async : Async) (todo : List Assign)
  /-- `community_ops_search` has begun. -/
  | search
  /-- At the head of the loop of a search. -/
  | round
  /-- Before it looks at `asyn_flag`. -/
  | look (async : Async)
  /-- Before it looks at `ctrlFlag`. -/
  | pause (async : Async)
  /-- It has seen `CONTROL_FLAG_STOPING`, and is to set `dev_status`. -/
  | noteStop (async : Async)
  /-- Then it is to set `ctrlFlag`. -/
  | ackStop (async : Async)
  /-- In the inner loop, after a timeout or a stop. -/
  | drain (async : Async) (timedOut : Bool)
  /-- Its loop is over, and `todo` is to be assigned. -/
  | finish (todo : List Assign)
deriving DecidableEq, Repr

/-- The worker is in its polling loop. -/
def Worker.Polls : Worker → Prop
  | .look _ | .pause _ | .noteStop _ | .ackStop _ | .drain _ _ => True
  | _ => False

/-- The calls of libfprint are made outside. -/
theorem Worker.not_polls_prepare {worker : Worker} {async : Async} {todo : List Assign}
    (h : worker = .prepare async todo) : ¬ worker.Polls := by
  rw [h]
  exact id

/-! ### libfprint and the stop requests -/

/-- How libfprint completes an operation. -/
inductive FpResult
  | success
  | error
  /-- `fp_print_serialize` fails. -/
  | serializeError
deriving DecidableEq, Repr

/-- Where the completion callback is: not running, or before the assignment it is named
after. -/
inductive Callback
  | returned | setIdle | setDone
deriving DecidableEq, Repr

/-- Where the completion callback of an operation begins. -/
def callbackOn : Async → FpResult → Callback
  | .deviceOpen, .success => .setDone
  | .deviceOpen, _ => .returned
  | .deviceEnroll, .success => .setIdle
  | .deviceEnroll, .serializeError => .returned
  | _, _ => .setDone

/-- Where a thread in `community_ops_stop_by_user` is: before it looks at `dev_status`, before
its assignments, in its own waiting loop, or back. -/
inductive Stopper
  | called | setAsyn | setCtrl | waiting
  | returned (ret : ℤ)
deriving DecidableEq, Repr

/-! ### The threads together -/

/-- The state of all threads; the threads that ask for a stop are named by `ι`. -/
structure Race (ι : Type) where
  flags : Flags
  timeused : ℤ
  timeoutMS : ℤ
  worker : Worker
  /-- The operation libfprint works on. -/
  pending : Option Async
  callback : Callback
  stopper : ι → Stopper

/-- A step of one thread. -/
inductive RaceStep (ι : Type)
  /-- The worker begins a step of the driver. -/
  | begin (async : Async)
  /-- The worker goes on. -/
  | worker
  /-- The worker returns early: verify from a template that it cannot deserialize, capture
  without an image. -/
  | giveUp
  /-- libfprint completes the operation, and calls back. -/
  | complete (result : FpResult)
  /-- The completion callback goes on. -/
  | callback
  /-- `on_enroll_progress`. -/
  | progress
  /-- `on_match_cb_search` is told that there is no match. -/
  | noMatch
  /-- A thread in `community_ops_stop_by_user` goes on. -/
  | stop (i : ι)

namespace Race

variable {ι : Type} [DecidableEq ι]

/-- One assignment, by whatever thread. -/
def assign (s : Race ι) (a : Assign) : Race ι := { s with flags := s.flags.assign a }

/-- The next step of the worker. -/
def workerStep (s : Race ι) : Option (Race ι) :=
  match s.worker with
  | .free => none
  | .prepare async (a :: todo) => some { s.assign a with worker := .prepare async todo }
  | .prepare async [] =>
    some { s with
      pending := some async
      timeused := if looksAtCtrlFlag async then 0 else s.timeused
      worker := .look async }
  | .search => some { s.assign (.status opsTypeSearch) with worker := .round }
  | .round =>
    some { s with
      worker := if s.flags.ctrlFlag = .done then .finish (assignsAfter .deviceSearch)
        else .prepare .deviceSearch (assignsBefore .deviceSearch) }
  | .look async =>
    if s.flags.asynFlag = .done then
      some { s with
        worker := if async = .deviceSearch then .round else .finish (assignsAfter async) }
    else if s.timeused > s.timeoutMS then some { s with worker := .drain async true }
    else
      some { s with
        timeused := s.timeused + fingerCheckIntervalMs
        worker := if looksAtCtrlFlag async then .pause async else .look async }
  | .pause async =>
    some { s with
      worker := if s.flags.ctrlFlag = .stoping then .noteStop async else .look async }
  | .noteStop async => some { s.assign (.status devsCommIdle) with worker := .ackStop async }
  | .ackStop async => some { s.assign (.ctrl .stopped) with worker := .drain async false }
  | .drain async timedOut =>
    some { s with
      worker := if s.flags.asynFlag = .done then
          .finish (if timedOut then [.status devsCommIdle] else [])
        else .drain async timedOut }
  | .finish (a :: todo) => some { s.assign a with worker := .finish todo }
  | .finish [] => some { s with worker := .free }

/-- The next step of `community_ops_stop_by_user`. Its own waiting may end at any time. -/
def stopStep (s : Race ι) (i : ι) : Option (Race ι) :=
  match s.stopper i with
  | .called =>
    some { s with
      stopper := Function.update s.stopper i
        (if s.flags.devStatus = devsCommIdle then .returned 0 else .setAsyn) }
  | .setAsyn =>
    some { s.assign (.asyn .running) with stopper := Function.update s.stopper i .setCtrl }
  | .setCtrl =>
    some { s.assign (.ctrl .stoping) with stopper := Function.update s.stopper i .waiting }
  | .waiting =>
    some { s with
      stopper := Function.update s.stopper i
        (.returned (if s.flags.ctrlFlag = .stopped ∨ s.flags.ctrlFlag = .done ∨
          s.flags.ctrlFlag = .idle then 0 else -1)) }
  | .returned _ => none

/-- A step of one thread; `none` where the thread is not at it. -/
def step (s : Race ι) : RaceStep ι → Option (Race ι)
  | .begin async =>
    if s.worker = .free then
      some { s with
        worker := if async = .deviceSearch then .search
          else .prepare async (assignsBefore async) }
    else none
  | .worker => s.workerStep
  | .giveUp =>
    if s.worker = .prepare .deviceVerify [] ∨
        s.worker = .look .deviceCapture ∧ s.flags.asynFlag = .done then
      some { s with worker := .free }
    else none
  | .complete result =>
    s.pending.map fun async => { s with pending := none, callback := callbackOn async result }
  | .callback =>
    match s.callback with
    | .returned => none
    | .setIdle => some { s.assign (.status devsCommIdle) with callback := .setDone }
    | .setDone => some { s.assign (.asyn .done) with callback := .returned }
  | .progress => if s.pending = some .deviceEnroll then some { s with timeused := 0 } else none
  | .noMatch => if s.pending = some .deviceSearch then some (s.assign (.ctrl .done)) else none
  | .stop i => s.stopStep i

/-- No operation is under way; every thread that will ask for a stop is yet to do so. -/
def init (flags : Flags) (timeused timeoutMS : ℤ) : Race ι where
  flags := flags
  timeused := timeused
  timeoutMS := timeoutMS
  worker := .free
  pending := none
  callback := .returned
  stopper _ := .called

/-- The worker polls, and the completion callback of its operation has run. -/
def Ended (s : Race ι) : Prop := s.worker.Polls ∧ s.pending = none ∧ s.callback = .returned

/-- The worker can see a completion that has happened. -/
def CompletionSeen (s : Race ι) : Prop := s.Ended → s.flags.asynFlag = .done

/-- What keeps it so: no stop request assigns `asyn_flag` when the operation has ended, and no
completion callback returns without assigning it. -/
def Careful (s : Race ι) : RaceStep ι → Prop
  | .stop i => s.stopper i = .setAsyn → ¬ s.Ended
  | .complete result => ∀ async, s.pending = some async → callbackOn async result ≠ .returned
  | _ => True

/-! ### What every run keeps -/

/-- Who may be waiting for whom. -/
structure Inv (s : Race ι) : Prop where
  /-- While libfprint works or calls back, the worker polls a flag that is not set. -/
  waiting : s.pending ≠ none ∨ s.callback ≠ .returned →
    s.worker.Polls ∧ s.flags.asynFlag = .running
  callback : s.callback ≠ .returned → s.pending = none
  /-- libfprint is called with the flag not set. -/
  prepare : ∀ async todo, s.worker = .prepare async todo → Assign.asyn .done ∉ todo ∧
    (Assign.asyn .running ∈ todo ∨ s.flags.asynFlag = .running)

omit [DecidableEq ι] in
theorem inv_init (flags : Flags) (timeused timeoutMS : ℤ) :
    Inv (init flags timeused timeoutMS : Race ι) where
  waiting h := by simp [init] at h
  callback h := absurd rfl h
  prepare := nofun

/-- A worker's step other than the call into libfprint. -/
structure WorkerMove (s s' : Race ι) : Prop where
  pending : s'.pending = s.pending
  callback : s'.callback = s.callback
  polls : s'.worker.Polls → s.worker.Polls
  /-- The worker does not assign `asyn_flag` in its loop, and leaves it only when it is set. -/
  loop : s.worker.Polls → s'.flags.asynFlag = s.flags.asynFlag ∧
    (s'.worker.Polls ∨ s.flags.asynFlag = .done)
  prepare : ∀ async todo, s'.worker = .prepare async todo →
    todo = assignsBefore .deviceSearch ∨
      ∃ a, s.worker = .prepare async (a :: todo) ∧ s'.flags = s.flags.assign a

omit [DecidableEq ι] in
/-- The worker calls libfprint, or it moves on. -/
theorem workerStep_cases {s s' : Race ι} (h : s.workerStep = some s') :
    (∃ async, s.worker = .prepare async [] ∧ s'.worker = .look async ∧
      s'.pending = some async ∧ s'.callback = s.callback ∧ s'.flags = s.flags) ∨
      WorkerMove s s' := by
  unfold workerStep at h
  -- a worker outside its loop does not poll, so what is said of a polling one holds of it
  have hout : ∀ {P : Prop} {worker : Worker}, s.worker = worker → ¬ worker.Polls →
      s.worker.Polls → P := fun hw hnot hpolls => (hnot (hw ▸ hpolls)).elim
  cases hw : s.worker with
  | free =>
    rw [hw] at h
    cases h
  | prepare async todo =>
    rw [hw] at h
    cases todo with
    | nil =>
      -- nothing is left to assign: this is the call of libfprint
      obtain rfl := Option.some.inj h
      exact .inl ⟨async, rfl, rfl, rfl, rfl, rfl⟩
    | cons a todo =>
      -- one assignment is made, and the others are still to be made
      obtain rfl := Option.some.inj h
      refine .inr ⟨rfl, rfl, False.elim, hout hw id, ?_⟩
      rintro async' todo' ⟨⟩
      exact .inr ⟨a, hw, rfl⟩
  | search =>
    rw [hw] at h
    obtain rfl := Option.some.inj h
    exact .inr ⟨rfl, rfl, False.elim, hout hw id, nofun⟩
  | round =>
    rw [hw] at h
    obtain rfl := Option.some.inj h
    -- the round is behind it: the search finishes, or the next one is prepared
    refine .inr ⟨rfl, rfl, ?_, hout hw id, ?_⟩
    · dsimp only
      split <;> exact False.elim
    · intro async todo hprepare
      dsimp only at hprepare
      split at hprepare
      · cases hprepare
      · cases hprepare
        exact .inl rfl
  | look async =>
    simp only [hw] at h
    split at h
    next hdone =>
      -- the one way out of the loop
      obtain rfl := Option.some.inj h
      refine .inr ⟨rfl, rfl, fun _ => hw ▸ trivial, fun _ => ⟨rfl, .inr hdone⟩, ?_⟩
      intro async' todo hprepare
      dsimp only at hprepare
      split at hprepare <;> cases hprepare
    next =>
      -- the flag is not set: the loop goes on, unless it is stopped or the time is over
      split at h
      · obtain rfl := Option.some.inj h
        exact .inr ⟨rfl, rfl, fun _ => hw ▸ trivial, fun _ => ⟨rfl, .inl trivial⟩, nofun⟩
      · obtain rfl := Option.some.inj h
        refine .inr ⟨rfl, rfl, fun _ => hw ▸ trivial, fun _ => ⟨rfl, .inl ?_⟩, ?_⟩
        · dsimp only
          split <;> trivial
        · intro async' todo hprepare
          dsimp only at hprepare
          split at hprepare <;> cases hprepare
  | pause async =>
    -- after a pause the loop looks again, or it has run out of time
    rw [hw] at h
    obtain rfl := Option.some.inj h
    refine .inr ⟨rfl, rfl, fun _ => hw ▸ trivial, fun _ => ⟨rfl, .inl ?_⟩, ?_⟩
    · dsimp only
      split <;> trivial
    · intro async' todo hprepare
      dsimp only at hprepare
      split at hprepare <;> cases hprepare
  | noteStop async | ackStop async =>
    rw [hw] at h
    obtain rfl := Option.some.inj h
    exact .inr ⟨rfl, rfl, fun _ => hw ▸ trivial, fun _ => ⟨rfl, .inl trivial⟩, nofun⟩
  | drain async timedOut =>
    rw [hw] at h
    obtain rfl := Option.some.inj h
    refine .inr ⟨rfl, rfl, fun _ => hw ▸ trivial, fun _ => ⟨rfl, ?_⟩, ?_⟩
    · -- after a timeout or a stop it leaves with the completion only
      by_cases hdone : s.flags.asynFlag = .done
      · exact .inr hdone
      · exact .inl (by simp [hdone, Worker.Polls])
    · intro async' todo hprepare
      dsimp only at hprepare
      split at hprepare <;> cases hprepare
  | finish todo =>
    rw [hw] at h
    cases todo with
    | nil | cons a todo =>
      obtain rfl := Option.some.inj h
      exact .inr ⟨rfl, rfl, False.elim, hout hw id, nofun⟩

/-- A step of another thread, which moves neither the worker nor libfprint nor its callback. -/
structure StaysPut (s s' : Race ι) : Prop where
  worker : s'.worker = s.worker
  pending : s'.pending = s.pending
  callback : s'.callback = s.callback

/-- A step in `community_ops_stop_by_user` assigns `asyn_flag`, or leaves it. -/
theorem stopStep_cases {s s' : Race ι} {i : ι} (h : s.stopStep i = some s') :
    StaysPut s s' ∧
      s'.flags.asynFlag = if s.stopper i = .setAsyn then .running else s.flags.asynFlag := by
  unfold stopStep at h
  cases hs : s.stopper i with
  | called | setAsyn | setCtrl | waiting =>
    rw [hs] at h
    obtain rfl := Option.some.inj h
    exact ⟨⟨rfl, rfl, rfl⟩, rfl⟩
  | returned ret =>
    rw [hs] at h
    cases h

/-- What libfprint reports while it works leaves `asyn_flag`. -/
theorem report_cases {s s' : Race ι} (h : s.step .progress = some s' ∨ s.step .noMatch = some s') :
    StaysPut s s' ∧ s'.flags.asynFlag = s.flags.asynFlag ∧ s.pending ≠ none := by
  rcases h with h | h
  all_goals
    obtain ⟨hpending, hs⟩ := Option.ite_none_right_eq_some.1 h
    obtain rfl := Option.some.inj hs
    exact ⟨⟨rfl, rfl, rfl⟩, rfl, by simp [hpending]⟩

/-- The completion callback assigns `dev_status` if it has to, and then `asyn_flag`. -/
theorem callback_cases {s s' : Race ι} (h : s.step .callback = some s') :
    s'.worker = s.worker ∧ s'.pending = s.pending ∧
      (s.callback = .setIdle ∧ s'.callback = .setDone ∧ s'.flags.asynFlag = s.flags.asynFlag ∨
        s.callback = .setDone ∧ s'.callback = .returned ∧ s'.flags.asynFlag = .done) := by
  simp only [Race.step] at h
  cases hcallback : s.callback with
  | returned =>
    rw [hcallback] at h
    cases h
  | setIdle =>
    rw [hcallback] at h
    obtain rfl := Option.some.inj h
    exact ⟨rfl, rfl, .inl ⟨rfl, rfl, rfl⟩⟩
  | setDone =>
    rw [hcallback] at h
    obtain rfl := Option.some.inj h
    exact ⟨rfl, rfl, .inr ⟨rfl, rfl, rfl⟩⟩

/-- The worker begins a step or gives one up, which takes it nowhere near its loop. -/
structure OutsideMove (s s' : Race ι) : Prop where
  polls : ¬ s'.worker.Polls
  pending : s'.pending = s.pending
  callback : s'.callback = s.callback
  prepare : ∀ async todo, s'.worker = .prepare async todo → todo = assignsBefore async

theorem begin_cases {s s' : Race ι} {async : Async} (h : s.step (.begin async) = some s') :
    s.worker = .free ∧ OutsideMove s s' := by
  obtain ⟨hfree, hs⟩ := Option.ite_none_right_eq_some.1 h
  obtain rfl := Option.some.inj hs
  refine ⟨hfree, ?_, rfl, rfl, ?_⟩
  · dsimp only
    split <;> exact id
  · intro async' todo hprepare
    dsimp only at hprepare
    split at hprepare
    · cases hprepare
    · cases hprepare
      rfl

theorem giveUp_cases {s s' : Race ι} (h : s.step .giveUp = some s') :
    (s.worker = .prepare .deviceVerify [] ∨
      s.worker = .look .deviceCapture ∧ s.flags.asynFlag = .done) ∧ OutsideMove s s' := by
  obtain ⟨hearly, hs⟩ := Option.ite_none_right_eq_some.1 h
  obtain rfl := Option.some.inj hs
  exact ⟨hearly, id, rfl, rfl, nofun⟩

omit [DecidableEq ι] in
theorem Inv.not_polls {s : Race ι} (h : Inv s) (hw : ¬ s.worker.Polls) :
    s.pending = none ∧ s.callback = .returned := by
  by_contra hne
  exact hw (h.waiting (by tauto)).1

omit [DecidableEq ι] in
theorem Inv.workerStep {s s' : Race ι} (h : Inv s) (hs : s.workerStep = some s') : Inv s' := by
  rcases workerStep_cases hs with ⟨async, hw, hw', hpending, hcallback, hflags⟩ | hmove
  · -- libfprint is called: all is assigned, so the flag is not set
    have hrunning := ((h.prepare async [] hw).2.resolve_left (by simp))
    have hreturned := (h.not_polls (by simp [hw, Worker.Polls])).2
    refine ⟨fun _ => ⟨hw' ▸ trivial, hflags ▸ hrunning⟩, ?_, ?_⟩
    · intro hne
      exact absurd (hcallback.trans hreturned) hne
    · intro async' todo hprepare
      rw [hw'] at hprepare
      cases hprepare
  · -- a move of the worker leaves libfprint alone
    refine ⟨?_, ?_, ?_⟩
    · -- while libfprint is busy the worker stays in its loop, and the flag is not set
      rw [hmove.pending, hmove.callback]
      intro hbusy
      obtain ⟨hpolls, hrunning⟩ := h.waiting hbusy
      obtain ⟨hflag, hstays⟩ := hmove.loop hpolls
      exact ⟨hstays.resolve_right (by simp [hrunning]), hflag.trans hrunning⟩
    · rw [hmove.pending, hmove.callback]
      exact h.callback
    · -- what is prepared now was prepared before, or it has just been started
      intro async todo hprepare
      rcases hmove.prepare async todo hprepare with rfl | ⟨a, hw, hflags⟩
      · exact ⟨by simp [assignsBefore], .inl (by simp [assignsBefore])⟩
      · -- one assignment of the list is made; if it is the one of `asyn_flag`, it now holds
        obtain ⟨hnot, hrunning⟩ := h.prepare async (a :: todo) hw
        refine ⟨fun hmem => hnot (List.mem_cons_of_mem _ hmem), ?_⟩
        rw [hflags]
        cases a with
        | asyn flag =>
          cases flag with
          | running => exact .inr rfl
          | done => exact absurd List.mem_cons_self hnot
        | ctrl flag | status status => simpa [Flags.assign] using hrunning

omit [DecidableEq ι] in
/-- Outside of its loop the worker has nobody to wait for. -/
theorem OutsideMove.inv {s s' : Race ι} (hmove : OutsideMove s s')
    (hidle : s.pending = none ∧ s.callback = .returned) : Inv s' where
  waiting hbusy := by
    rw [hmove.pending, hmove.callback] at hbusy
    exact (hbusy.elim (· hidle.1) (· hidle.2)).elim
  callback hne := absurd (hmove.callback.trans hidle.2) hne
  prepare async todo hprepare := by
    obtain rfl := hmove.prepare async todo hprepare
    cases async <;> simp [assignsBefore]

omit [DecidableEq ι] in
/-- Another thread may set `asyn_flag` to running, and nothing else. -/
theorem Inv.of_staysPut {s s' : Race ι} (h : Inv s) (hstays : StaysPut s s')
    (hkeeps : s.flags.asynFlag = .running → s'.flags.asynFlag = .running) : Inv s' := by
  refine ⟨?_, ?_, ?_⟩
  · rw [hstays.pending, hstays.callback, hstays.worker]
    exact fun hbusy => (h.waiting hbusy).imp id hkeeps
  · rw [hstays.pending, hstays.callback]
    exact h.callback
  · rw [hstays.worker]
    intro async todo hprepare
    exact (h.prepare async todo hprepare).imp id (Or.imp id hkeeps)

/-- Every step keeps the invariant. -/
theorem Inv.step {s s' : Race ι} (h : Inv s) {a : RaceStep ι} (hs : s.step a = some s') :
    Inv s' := by
  cases a with
  | begin async =>
    obtain ⟨hfree, hmove⟩ := begin_cases hs
    -- no operation was under way, so nothing is said of the new one
    exact hmove.inv (h.not_polls (by simp [hfree, Worker.Polls]))
  | worker => exact h.workerStep hs
  | giveUp =>
    obtain ⟨hearly, hmove⟩ := giveUp_cases hs
    refine hmove.inv ?_
    rcases hearly with hw | ⟨-, hdone⟩
    · exact h.not_polls (by simp [hw, Worker.Polls])
    · -- libfprint is done with the capture: `asyn_flag` is set
      by_contra hne
      have hrunning := (h.waiting (by tauto)).2
      simp [hdone] at hrunning
  | complete result =>
    -- libfprint is done: the callback has not run, so the worker still waits for it
    obtain ⟨async, hpending, rfl⟩ := Option.map_eq_some_iff.1 hs
    have hwaiting := h.waiting (.inl (by simp [hpending]))
    exact ⟨fun _ => hwaiting, fun _ => rfl, h.prepare⟩
  | callback =>
    -- the callback runs while the worker waits, as libfprint is not done with it before it has
    -- returned
    obtain ⟨hworker, hpending', hcases⟩ := callback_cases hs
    have hrunning : s.callback ≠ .returned := by
      rcases hcases with ⟨hcallback, -⟩ | ⟨hcallback, -⟩ <;> simp [hcallback]
    have hpending := hpending'.trans (h.callback hrunning)
    obtain ⟨hpolls, hflag⟩ := h.waiting (.inr hrunning)
    refine ⟨fun hbusy => ?_, fun _ => hpending, ?_⟩
    · rcases hcases with ⟨-, -, hasyn⟩ | ⟨-, hreturned, -⟩
      · exact ⟨hworker ▸ hpolls, hasyn.trans hflag⟩
      · exact (hbusy.elim (· hpending) (· hreturned)).elim
    · -- a worker that polls prepares nothing
      intro async todo hprepare
      exact (Worker.not_polls_prepare (hworker.symm.trans hprepare) hpolls).elim
  | progress =>
    -- a report touches neither the worker nor libfprint
    obtain ⟨hstays, hasyn, -⟩ := report_cases (.inl hs)
    exact h.of_staysPut hstays hasyn.trans
  | noMatch =>
    obtain ⟨hstays, hasyn, -⟩ := report_cases (.inr hs)
    exact h.of_staysPut hstays hasyn.trans
  | stop i =>
    -- the one value that a stop gives `asyn_flag` is the one that it has
    obtain ⟨hstays, hasyn⟩ := stopStep_cases hs
    refine h.of_staysPut hstays fun hrunning => ?_
    rw [hasyn, hrunning, ite_self]

/-! ### Completions seen and lost -/

omit [DecidableEq ι] in
theorem workerStep_completionSeen {s s' : Race ι} (h : s.CompletionSeen)
    (hs : s.workerStep = some s') : s'.CompletionSeen := by
  rintro ⟨hpolls, hpending, hcallback⟩
  rcases workerStep_cases hs with ⟨async, -, -, hpending', -, -⟩ | hmove
  · exact nomatch hpending.symm.trans hpending'
  · have hpolls' := hmove.polls hpolls
    rw [(hmove.loop hpolls').1]
    exact h ⟨hpolls', hmove.pending ▸ hpending, hmove.callback ▸ hcallback⟩

omit [DecidableEq ι] in
theorem StaysPut.ended_iff {s s' : Race ι} (h : StaysPut s s') : s'.Ended ↔ s.Ended := by
  simp only [Ended, h.worker, h.pending, h.callback]

omit [DecidableEq ι] in
theorem StaysPut.completionSeen {s s' : Race ι} (h : StaysPut s s')
    (hasyn : s'.flags.asynFlag = s.flags.asynFlag) (hseen : s.CompletionSeen) :
    s'.CompletionSeen := by
  intro hended
  rw [hasyn]
  exact hseen (h.ended_iff.mp hended)

/-- A step keeps the completion to be seen exactly if it is careful. -/
theorem completionSeen_iff_careful {s s' : Race ι} (hinv : Inv s) (h : s.CompletionSeen)
    {a : RaceStep ι} (hs : s.step a = some s') : s'.CompletionSeen ↔ s.Careful a := by
  cases a with
  | begin async =>
    -- a new operation has not ended
    have hout := (begin_cases hs).2.polls
    exact iff_of_true (fun hended => absurd hended.1 hout) trivial
  | worker => exact iff_of_true (workerStep_completionSeen h hs) trivial
  | giveUp =>
    have hout := (giveUp_cases hs).2.polls
    exact iff_of_true (fun hended => absurd hended.1 hout) trivial
  | complete result =>
    -- the operation ends here: the flag is not set yet, so its callback has to set it
    obtain ⟨async, hpending, rfl⟩ := Option.map_eq_some_iff.1 hs
    obtain ⟨hpolls, hrunning⟩ := hinv.waiting (.inl (by simp [hpending]))
    constructor
    · intro hseen async' hasync hreturned
      obtain rfl := Option.some.inj (hpending.symm.trans hasync)
      have hdone := hseen ⟨hpolls, rfl, hreturned⟩
      exact nomatch hrunning.symm.trans hdone
    · rintro hcareful ⟨-, -, hreturned⟩
      exact absurd hreturned (hcareful async hpending)
  | callback =>
    -- the last line of the callback sets the flag, and every other line has not returned
    refine iff_of_true ?_ trivial
    obtain ⟨-, -, hcases⟩ := callback_cases hs
    rintro ⟨-, -, hreturned⟩
    rcases hcases with ⟨-, hcallback, -⟩ | ⟨-, -, hdone⟩
    · cases hcallback.symm.trans hreturned
    · exact hdone
  | progress =>
    obtain ⟨hstays, hasyn, -⟩ := report_cases (.inl hs)
    exact iff_of_true (hstays.completionSeen hasyn h) trivial
  | noMatch =>
    obtain ⟨hstays, hasyn, -⟩ := report_cases (.inr hs)
    exact iff_of_true (hstays.completionSeen hasyn h) trivial
  | stop i =>
    -- a stop can take a flag back that was set: it must not do so after the operation
    obtain ⟨hstays, hasyn⟩ := stopStep_cases hs
    simp only [CompletionSeen, Careful, hstays.ended_iff, hasyn]
    by_cases hset : s.stopper i = .setAsyn
    · simp [hset]
    · simp only [hset, false_imp_iff, iff_true]
      exact h

omit [DecidableEq ι] in
/-- A thread that cannot take the step does no harm. -/
theorem careful_of_disabled {s : Race ι} [DecidableEq ι] {a : RaceStep ι}
    (hs : s.step a = none) : s.Careful a := by
  cases a with
  | stop i =>
    intro hset
    rw [Race.step, stopStep, hset] at hs
    cases hs
  | complete result =>
    intro async hpending
    rw [Race.step, hpending] at hs
    cases hs
  | _ => trivial

/-- **No completion is lost**, in any state of a run, exactly if no stop request assigns
`asyn_flag` after a completion that the worker has not looked at, and every completion callback
sets it. -/
theorem always_completionSeen_iff (flags : Flags) (timeused timeoutMS : ℤ)
    (steps : List (RaceStep ι)) :
    Machine.Always step CompletionSeen (init flags timeused timeoutMS) steps ↔
      Machine.Along step Careful (init flags timeused timeoutMS) steps :=
  Machine.always_iff_along_of_invariant (I := Inv) (fun _ _ hs => careful_of_disabled hs)
    (fun _ _ _ hinv hs => hinv.step hs)
    (fun _ _ _ hinv h hs => completionSeen_iff_careful hinv h hs)
    (inv_init flags timeused timeoutMS) (fun hended => hended.1.elim) steps

/-- At most `n` steps of the worker on its own take it out of its loop. -/
def LeavesIn : ℕ → Race ι → Prop
  | 0, s => ¬ s.worker.Polls
  | n + 1, s => ¬ s.worker.Polls ∨ ∃ s', s.workerStep = some s' ∧ LeavesIn n s'

omit [DecidableEq ι] in
theorem leavesIn_of_not_polls (n : ℕ) {s : Race ι} (h : ¬ s.worker.Polls) : LeavesIn n s := by
  cases n with
  | zero => exact h
  | succ n => exact .inl h

section Leaving

variable (n : ℕ) {s : Race ι} {async : Async} (hdone : s.flags.asynFlag = .done)
include hdone

omit [DecidableEq ι] in
theorem leavesIn_look (hw : s.worker = .look async) : LeavesIn (n + 1) s := by
  refine .inr ⟨_, by rw [workerStep, hw]; exact if_pos hdone, leavesIn_of_not_polls n ?_⟩
  show ¬ (if async = .deviceSearch then Worker.round else .finish (assignsAfter async)).Polls
  split <;> exact id

omit [DecidableEq ι] in
theorem leavesIn_drain {timedOut : Bool} (hw : s.worker = .drain async timedOut) :
    LeavesIn (n + 1) s := by
  refine .inr ⟨_, by rw [workerStep, hw], leavesIn_of_not_polls n ?_⟩
  show ¬ (if s.flags.asynFlag = .done then
    Worker.finish (if timedOut then [.status devsCommIdle] else [])
      else .drain async timedOut).Polls
  rw [if_pos hdone]
  exact id

omit [DecidableEq ι] in
/-- Behind a stop the inner loop waits for the completion, which is there. -/
theorem leavesIn_ackStop (hw : s.worker = .ackStop async) : LeavesIn (n + 2) s := by
  refine .inr ⟨{ s.assign (.ctrl .stopped) with worker := .drain async false }, ?_, ?_⟩
  · rw [workerStep, hw]
  · exact leavesIn_drain n hdone rfl

omit [DecidableEq ι] in
theorem leavesIn_noteStop (hw : s.worker = .noteStop async) : LeavesIn (n + 3) s := by
  refine .inr ⟨{ s.assign (.status devsCommIdle) with worker := .ackStop async }, ?_, ?_⟩
  · rw [workerStep, hw]
  · exact leavesIn_ackStop n hdone rfl

end Leaving

omit [DecidableEq ι] in
/-- A completion that can be seen releases the worker. -/
theorem leaves {s : Race ι} (h : s.CompletionSeen) (hended : s.Ended) : LeavesIn 4 s := by
  have hdone := h hended
  cases hw : s.worker with
  | look async => exact leavesIn_look 3 hdone hw
  | pause async =>
    refine .inr ⟨_, by rw [workerStep, hw], ?_⟩
    by_cases hstoping : s.flags.ctrlFlag = .stoping
    · -- the longest way out: it notes the stop, acknowledges it and drains
      exact leavesIn_noteStop 0 hdone (if_pos hstoping)
    · exact leavesIn_look 2 hdone (if_neg hstoping)
  | noteStop async => exact leavesIn_noteStop 1 hdone hw
  | ackStop async => exact leavesIn_ackStop 2 hdone hw
  | drain async timedOut => exact leavesIn_drain 3 hdone hw
  | free | prepare | search | round | finish =>
    have hpolls := hended.1
    rw [hw] at hpolls
    exact hpolls.elim

/-- The worker polls for a completion that nobody will tell it of. -/
def CompletionLost (s : Race ι) : Prop := s.Ended ∧ s.flags.asynFlag = .running

theorem CompletionLost.step {s s' : Race ι} (h : s.CompletionLost) {a : RaceStep ι}
    (hs : s.step a = some s') : s'.CompletionLost := by
  obtain ⟨⟨hpolls, hpending, hcallback⟩, hrunning⟩ := h
  cases a with
  | begin async =>
    obtain ⟨hfree, -⟩ := begin_cases hs
    exact (hfree ▸ hpolls : Worker.free.Polls).elim
  | worker =>
    rcases workerStep_cases hs with ⟨async, hw, -⟩ | hmove
    · exact (Worker.not_polls_prepare hw hpolls).elim
    · obtain ⟨hflag, hstays⟩ := hmove.loop hpolls
      exact ⟨⟨hstays.resolve_right (by simp [hrunning]), hmove.pending.trans hpending,
        hmove.callback.trans hcallback⟩, hflag.trans hrunning⟩
  | giveUp =>
    obtain ⟨hw | ⟨-, hdone⟩, -⟩ := giveUp_cases hs
    · exact (Worker.not_polls_prepare hw hpolls).elim
    · exact nomatch hrunning.symm.trans hdone
  | complete result =>
    rw [Race.step, hpending] at hs
    cases hs
  | callback =>
    rw [Race.step, hcallback] at hs
    cases hs
  | progress => exact absurd hpending (report_cases (.inl hs)).2.2
  | noMatch => exact absurd hpending (report_cases (.inr hs)).2.2
  | stop i =>
    obtain ⟨hstays, hasyn⟩ := stopStep_cases hs
    refine ⟨hstays.ended_iff.mpr ⟨hpolls, hpending, hcallback⟩, ?_⟩
    rw [hasyn, hrunning, ite_self]

/-- A completion that is lost stays lost, whatever the threads do. -/
theorem always_polls {s : Race ι} (h : s.CompletionLost) (steps : List (RaceStep ι)) :
    Machine.Always step CompletionLost s steps :=
  (Machine.along_of_forall (fun _ _ => trivial) s steps).always (C := fun _ _ => True)
    (fun _ _ _ hs _ => hs.step) h

/-! ### A stop request that nothing interrupts -/

/-- On its own, a thread in `community_ops_stop_by_user` does to the flags what the driver's
event does. -/
theorem stop_alone {π : Type} {s : Race ι} {i : ι} {w : World π} (hcalled : s.stopper i = .called)
    (hflags : s.flags = w.flags) :
    ∃ n s', Machine.run step s (List.replicate n (.stop i)) = some s' ∧
      s'.flags = w.communityOpsStopByUser.flags := by
  have hstatus : s.flags.devStatus = w.dev.devStatus := by rw [hflags, World.flags]
  by_cases hidle : w.dev.devStatus = devsCommIdle
  · refine ⟨1, { s with stopper := Function.update s.stopper i (.returned 0) }, ?_, ?_⟩
    · simp [step, stopStep, hcalled, hstatus, hidle]
    · rw [World.communityOpsStopByUser, if_pos hidle]
      exact hflags
  · refine ⟨3, { (s.assign (.asyn .running)).assign (.ctrl .stoping) with
      stopper := Function.update s.stopper i .waiting }, ?_, ?_⟩
    · have hbusy : s.flags.devStatus ≠ 0 := hstatus ▸ hidle
      simp [step, stopStep, hcalled, hbusy, assign]
    · rw [World.communityOpsStopByUser, if_neg hidle]
      simp only [assign, hflags]
      rfl

end Race

/-! ### A verify that is stopped too late -/

/-- The device is opened and a verify begins. A user asks for a stop, libfprint completes, and
the thread of the stop assigns `asyn_flag`. -/
def lateStop : List (RaceStep Unit) :=
  [.begin .deviceOpen, .worker, .worker, .worker, .worker, .complete .success, .callback,
    .worker, .worker, .worker, .begin .deviceVerify, .worker, .worker, .worker, .stop (),
    .complete .success, .callback, .stop ()]

/-- The verify is lost. -/
theorem not_always_completionSeen :
    ¬ ∀ (flags : Flags) (timeused timeoutMS : ℤ) (steps : List (RaceStep Unit)),
      Machine.Always Race.step Race.CompletionSeen (Race.init flags timeused timeoutMS) steps := by
  intro h
  have hrun : (Machine.run Race.step (Race.init ⟨.done, .idle, 0⟩ 0 30000) lateStop).map
      (fun s => (s.worker, s.pending, s.callback, s.flags.asynFlag)) =
        some (.look .deviceVerify, none, .returned, .running) := by decide
  obtain ⟨s, hs, hlost⟩ := Option.map_eq_some_iff.1 hrun
  simp only [Prod.mk.injEq] at hlost
  obtain ⟨hworker, hpending, hcallback, hrunning⟩ := hlost
  have hseen := (h ⟨.done, .idle, 0⟩ 0 30000 lateStop).run hs
    ⟨hworker ▸ trivial, hpending, hcallback⟩
  exact nomatch hrunning.symm.trans hseen

end BiometricAuth
