import BiometricAuth.Driver.Budget

/-!
# Completions release their waiter

A step of the driver that waits on libfprint leaves its loop when it finds `asyn_flag` to be
`ASYN_FLAG_DONE`, and the completion callback of the step is to set it. `on_device_opened` and
`on_enroll_completed` have a path on which they do not (`forgetsFlag`).

Main result: `poll_returns_iff` — when no user asks for a stop, the loop returns at most one
sleep after the completion, whatever it was doing, exactly if the callback sets the flag and
no callback crashes.
-/

namespace BiometricAuth

open Process World

section Release

variable {π : Type}

/-- The event is a completion of the operation. -/
def completionOf (async : Async) : Event π → Bool
  | .deviceOpened _ => async = .deviceOpen
  | .deviceClosed => async = .deviceClose
  | .enrollCompleted _ => async = .deviceEnroll
  | .captureCompleted _ => async = .deviceCapture
  | .verifyCompleted => async = .deviceVerify
  | .deviceIdentified => async = .deviceIdentify ∨ async = .deviceSearch
  | .enrollProgress | .matchReport _ | .stopByUser => false

/-- The callback returns before it sets `asyn_flag`: the device cannot be opened, or the print
cannot be serialized. -/
def forgetsFlag : Event π → Bool
  | .deviceOpened false => true
  | .enrollCompleted .serializeError => true
  | _ => false

variable (fp : Libfprint π)

/-- The polling loop of the step that waits for an operation. -/
def pollerOf : Async → Poller (World π) (Event π)
  | .deviceOpen => openPoller fp
  | .deviceClose => openPoller fp
  | _ => opPoller fp

/-- A step waits for the operation, and no stop is asked for. -/
structure InFlight (async : Async) (w : World π) : Prop where
  pending : w.pending = some async
  asynFlag : w.priv.asynFlag = .running
  ctrlFlag : w.priv.ctrlFlag ≠ .stoping

/-- The operation is over, and so is the step. -/
structure Over (w : World π) : Prop where
  pending : w.pending = none
  asynFlag : w.priv.asynFlag = .done
  ctrlFlag : w.priv.ctrlFlag ≠ .stoping

/-- The operation is over, and nobody tells the step. -/
structure Lost (w : World π) : Prop where
  pending : w.pending = none
  asynFlag : w.priv.asynFlag = .running

/-- The events that leave the step waiting. -/
def QuietFor (async : Async) (e : Event π) : Prop :=
  completionOf async e = false ∧ e ≠ .stopByUser

/-- The driver without its count of the time. -/
def World.timeless (w : World π) : World π := { w with priv := { w.priv with timeused := 0 } }

variable {fp} {async : Async} {w w' : World π} {e : Event π}

/-- No callback reads the count. -/
theorem deliver_timeless (w : World π) (e : Event π) :
    (w.deliver fp e).map timeless = (w.timeless.deliver fp e).map timeless := by
  -- an event is one callback, under a condition on what is pending, which the count is no part of
  have hstep (c : Prop) [Decidable c] (f : World π → World π)
      (hf : (f w).timeless = (f w.timeless).timeless) :
      (some (if c then f w else w)).map timeless =
        (some (if c then f w.timeless else w.timeless)).map timeless := by
    split
    · simpa using hf
    · rfl
  cases e with
  | deviceOpened ok =>
    exact hstep (w.pending = some .deviceOpen) (fun w => (w.completeOpen ok).onDeviceOpened ok)
      (by cases ok <;> rfl)
  | deviceClosed =>
    exact hstep (w.pending = some .deviceClose) (fun w => w.complete.onDeviceClosed) rfl
  | enrollProgress => exact hstep (w.pending = some .deviceEnroll) (fun w => w.onEnrollProgress) rfl
  | captureCompleted image =>
    exact hstep (w.pending = some .deviceCapture) (fun w => w.complete.onCaptureCompleted image)
      (by cases image <;> rfl)
  | verifyCompleted =>
    exact hstep (w.pending = some .deviceVerify) (fun w => w.complete.onVerifyCompleted) rfl
  | deviceIdentified =>
    exact hstep (w.pending = some .deviceIdentify ∨ w.pending = some .deviceSearch)
      (fun w => w.complete.onDeviceIdentify) rfl
  | stopByUser =>
    have hdev : w.timeless.dev = w.dev := rfl
    simp only [World.deliver, communityOpsStopByUser, hdev]
    split <;> rfl
  | enrollCompleted result =>
    -- the callbacks that can crash do so whatever the count is
    have hpending : w.timeless.pending = w.pending := rfl
    simp only [World.deliver, hpending]
    split
    · cases result with
      | error | serializeError => rfl
      | print data =>
        simp only [onEnrollCompleted, Option.map_map]
        rfl
    · rfl
  | matchReport report =>
    have hpending : w.timeless.pending = w.pending := rfl
    simp only [World.deliver, hpending]
    split
    · cases report <;> rfl
    · cases report with
      | error | noMatch => rfl
      | matched print =>
        simp only [onMatchCbIdentify, Option.bind_eq_bind, Option.map_bind]
        refine congrArg (Option.bind _) (funext fun infos => ?_)
        simp only [Function.comp_apply, Option.map_bind]
        rfl
    · cases report with
      | error | noMatch => rfl
      | matched print =>
        simp only [onMatchCbSearch, Option.bind_eq_bind, Option.map_bind]
        refine congrArg (Option.bind _) (funext fun infos => ?_)
        simp only [Function.comp_apply, Option.map_bind]
        rfl
    · rfl

/-- What happens while a step waits. -/
theorem InFlight.deliver (h : InFlight async w) (hquiet : QuietFor async e)
    (he : w.deliver fp e = some w') : InFlight async w' := by
  obtain ⟨hpending, hasyn, hctrl⟩ := h
  obtain ⟨hcompletion, hstop⟩ := hquiet
  have hcompletes {async' : Async} (hp : w.pending = some async') :
      completionOf async' e = false := by
    obtain rfl := Option.some.inj (hpending.symm.trans hp)
    exact hcompletion
  cases deliver_inv he with
  | ignored => exact ⟨hpending, hasyn, hctrl⟩
  | stopByUser => exact absurd rfl hstop
  | enrollProgress => exact ⟨hpending, hasyn, hctrl⟩
  | verifyReport report => cases report <;> exact ⟨hpending, hasyn, hctrl⟩
  | identifyReport _ hreport =>
    obtain ⟨uid, dev, rfl, -⟩ := exists_of_onMatchCbIdentify hreport
    exact ⟨hpending, hasyn, hctrl⟩
  | searchReport _ hreport =>
    -- without a match `ctrlFlag` is `CONTROL_FLAG_DONE`, which is no stop either
    obtain ⟨data, dev, ctrlFlag, rfl, -, rfl | rfl⟩ := exists_of_onMatchCbSearch hreport
    · exact ⟨hpending, hasyn, hctrl⟩
    · exact ⟨hpending, hasyn, by simp⟩
  -- the completions are not quiet
  | deviceOpened ok hp | deviceClosed hp | enrollError hp | serializeError hp | enrollPrint _ hp
    | captureCompleted _ hp | verifyCompleted hp => exact Bool.noConfusion (hcompletes hp)
  | deviceIdentified hp =>
    rcases hp with hp | hp <;> exact Bool.noConfusion (hcompletes hp)

/-- The completion. -/
theorem InFlight.complete (h : InFlight async w) (hcompletion : completionOf async e = true)
    (he : w.deliver fp e = some w') : if forgetsFlag e then Lost w' else Over w' := by
  obtain ⟨hpending, hasyn, hctrl⟩ := h
  cases e with
  | deviceOpened ok =>
    obtain rfl : async = .deviceOpen := by simpa [completionOf] using hcompletion
    obtain rfl := Option.some.inj he
    rw [if_pos hpending]
    cases ok
    · exact ⟨rfl, hasyn⟩
    · exact ⟨rfl, rfl, hctrl⟩
  | deviceClosed =>
    -- these callbacks set the flag
    obtain rfl : async = .deviceClose := by simpa [completionOf] using hcompletion
    obtain rfl := Option.some.inj he
    rw [if_pos hpending]
    exact ⟨rfl, rfl, hctrl⟩
  | captureCompleted image =>
    obtain rfl : async = .deviceCapture := by simpa [completionOf] using hcompletion
    obtain rfl := Option.some.inj he
    rw [if_pos hpending]
    cases image <;> exact ⟨rfl, rfl, hctrl⟩
  | verifyCompleted =>
    obtain rfl : async = .deviceVerify := by simpa [completionOf] using hcompletion
    obtain rfl := Option.some.inj he
    rw [if_pos hpending]
    exact ⟨rfl, rfl, hctrl⟩
  | deviceIdentified =>
    have hasync : async = .deviceIdentify ∨ async = .deviceSearch := by
      simpa [completionOf] using hcompletion
    obtain rfl := Option.some.inj he
    rw [if_pos (hasync.imp (fun h => h ▸ hpending) fun h => h ▸ hpending)]
    exact ⟨rfl, rfl, hctrl⟩
  | enrollCompleted result =>
    -- the callback of an enroll sets it unless the print cannot be serialised
    obtain rfl : async = .deviceEnroll := by simpa [completionOf] using hcompletion
    rw [World.deliver, if_pos hpending] at he
    cases result with
    | error =>
      obtain rfl := Option.some.inj he
      exact ⟨rfl, rfl, hctrl⟩
    | serializeError =>
      obtain rfl := Option.some.inj he
      exact ⟨rfl, hasyn⟩
    | print data =>
      obtain ⟨⟨ret, store⟩, -, rfl⟩ := Option.map_eq_some_iff.mp he
      exact ⟨rfl, rfl, hctrl⟩
  -- these events complete nothing
  | enrollProgress | matchReport | stopByUser => simp [completionOf] at hcompletion

theorem deliver_of_pending_none (hpending : w.pending = none) (hstop : e ≠ .stopByUser) :
    w.deliver fp e = some w :=
  deliver_of_not_callback fp (fun async hasync => by simp [hpending] at hasync) hstop

/-- Nothing that happens later helps the step. -/
theorem Lost.deliver (h : Lost w) (he : w.deliver fp e = some w') : Lost w' := by
  by_cases hstop : e = .stopByUser
  · subst hstop
    obtain rfl := Option.some.inj he
    refine ⟨by rw [communityOpsStopByUser_pending, h.pending], ?_⟩
    unfold communityOpsStopByUser
    split
    · exact h.asynFlag
    · rfl
  · rw [deliver_of_pending_none h.pending hstop] at he
    obtain rfl := Option.some.inj he
    exact h

variable (fp)

/-- The loop of every step waits for one completion. -/
theorem awaits_pollerOf (async : Async) :
    (pollerOf fp async).Awaits (InFlight async) Over (QuietFor async) (fun e => e ≠ .stopByUser)
      timeless fun w e => (w.deliver fp e).map timeless := by
  -- the loops differ in whether they look at the stop flag
  have hawaits (isStopping : World π → Bool)
      (hstopping : ∀ w : World π, w.priv.ctrlFlag ≠ .stoping → isStopping w = false) :
      ({ opPoller fp with isStopping } : Poller (World π) (Event π)).Awaits (InFlight async) Over
        (QuietFor async) (fun e => e ≠ .stopByUser) timeless
        fun w e => (w.deliver fp e).map timeless :=
    { quiet := fun w e w' hw he h => hw.deliver he h
      tick := fun w hw => ⟨hw.pending, hw.asynFlag, hw.ctrlFlag⟩
      not_done := by
        intro w hw
        change (w.priv.asynFlag == .done) = false
        rw [hw.asynFlag]
        rfl
      not_stopping := fun w hw => hstopping w (hw.elim InFlight.ctrlFlag Over.ctrlFlag)
      done := by
        intro w hw
        change (w.priv.asynFlag == .done) = true
        rw [hw.asynFlag]
        rfl
      late := fun w e hw he => ⟨w, deliver_of_pending_none hw.pending he, hw⟩
      deliver_core := fun w e => deliver_timeless w e
      tick_core := fun w => rfl }
  have hop := hawaits (fun w => w.priv.ctrlFlag == .stoping) fun w hw => by simpa using hw
  have hopen := hawaits (fun _ => false) fun _ _ => rfl
  -- open and close do not, the operations do
  cases async with
  | deviceOpen | deviceClose => exact hopen
  | _ => exact hop

/-- The loop of a step whose completion is lost. -/
theorem pollerOf_lost (async : Async) {w : World π} (h : Lost w) :
    (pollerOf fp async).isDone w = false ∧ Lost ((pollerOf fp async).tick w) ∧
      Lost ((pollerOf fp async).stop w) := by
  have hdone : (w.priv.asynFlag == AsynFlag.done) = false := by
    rw [h.asynFlag]
    rfl
  cases async <;> exact ⟨hdone, ⟨h.pending, h.asynFlag⟩, ⟨h.pending, h.asynFlag⟩⟩

/-- **Every completion releases its waiter**, one sleep later at most, exactly if its callback
sets the flag and no callback before it crashes. -/
theorem poll_returns_iff (async : Async) (e : Event π) (hcompletion : completionOf async e = true)
    (w : World π) (hw : InFlight async w) (pre rest : List (List (Event π)))
    (before after next : List (Event π)) (hpre : ∀ evs ∈ pre, ∀ e ∈ evs, QuietFor async e)
    (hbefore : ∀ e ∈ before, QuietFor async e) (hafter : ∀ e ∈ after ++ next, e ≠ .stopByUser) :
    (∃ exit w' es', (pollerOf fp async).poll w (pre ++ (before ++ e :: after) :: next :: rest) =
        .ret exit w' es' ∧ (es' = next :: rest ∨ es' = rest)) ↔
      forgetsFlag e = false ∧
        ∃ w', deliverAll (World.deliver fp) w (pre.flatten ++ before ++ [e]) = .ok w' := by
  have hawaits := awaits_pollerOf fp async
  -- all of them deliver the same way
  have hdeliver : (pollerOf fp async).deliver = World.deliver fp := by cases async <;> rfl
  cases hforgets : forgetsFlag e with
  | true =>
    -- a callback that forgets the flag leaves the loop without a completion
    refine iff_of_false ?_ (fun h => Bool.noConfusion h.1)
    rintro ⟨exit, w', es', hret, -⟩
    refine hawaits.poll_ne_ret (fun s e s' hs he => Lost.deliver hs (hdeliver ▸ he))
      (fun s hs => (pollerOf_lost fp async hs).1) (fun s hs => (pollerOf_lost fp async hs).2.1)
      (fun s hs => (pollerOf_lost fp async hs).2.2) (fun s s' hs he => ?_) hw hpre hbefore hret
    rw [hdeliver] at he
    simpa [hforgets] using hs.complete hcompletion he
  | false =>
    -- one that sets it ends the loop, unless a callback before it crashed
    have hreturns := hawaits.poll_ret_iff rest (e := e) (fun s s' hs he => ?_) hw hpre
      hbefore (fun e he => hafter e (List.mem_append_left _ he))
      fun e he => hafter e (List.mem_append_right _ he)
    · rw [hreturns, hdeliver]
      simp
    · rw [hdeliver] at he
      simpa [hforgets] using hs.complete hcompletion he

/-! ### How the steps begin to wait -/

theorem inFlight_startOpen (w : World π) :
    InFlight .deviceOpen (w.setAsynRunning.setCtrlFlag .running).startOpen :=
  ⟨rfl, rfl, by simp [startOpen, beginAsync, setCtrlFlag]⟩

theorem inFlight_startClose {w : World π} (h : w.priv.ctrlFlag ≠ .stoping) :
    InFlight .deviceClose w.setAsynRunning.startClose :=
  ⟨rfl, rfl, h⟩

end Release

/-! ### A device that closes, and one that cannot be opened -/

/-- The device is closed in the first sleep. -/
theorem poll_returns_close :
    ∃ exit w' es', (pollerOf bytesLibfprint .deviceClose).poll
        idleWorld.setAsynRunning.startClose ([] ++ ([] ++ .deviceClosed :: []) :: [] :: []) =
      .ret exit w' es' ∧ (es' = [[]] ∨ es' = []) :=
  (poll_returns_iff bytesLibfprint .deviceClose .deviceClosed rfl _
    (inFlight_startClose (by decide)) [] [] [] [] [] nofun nofun nofun).2 ⟨rfl, _, rfl⟩

/-- An error while the device is opened: no number of sleeps is enough. -/
theorem not_poll_returns_openError :
    ¬ ∃ bound, ∀ rest : List (List (Event Bytes)), bound ≤ rest.length →
      ∃ exit w' es', (pollerOf bytesLibfprint .deviceOpen).poll
        (idleWorld.setAsynRunning.setCtrlFlag .running).startOpen
          ([] ++ ([] ++ .deviceOpened false :: []) :: rest) = .ret exit w' es' := by
  rintro ⟨bound, h⟩
  obtain ⟨exit, w', es', hret⟩ := h (List.replicate bound []) (by simp)
  refine (awaits_pollerOf bytesLibfprint .deviceOpen).poll_ne_ret
    (fun s e s' hs he =>
      have he' : s.deliver bytesLibfprint e = some s' := he
      Lost.deliver hs he')
    (fun s hs => (pollerOf_lost bytesLibfprint .deviceOpen hs).1)
    (fun s hs => (pollerOf_lost bytesLibfprint .deviceOpen hs).2.1)
    (fun s hs => (pollerOf_lost bytesLibfprint .deviceOpen hs).2.2) (fun s s' hs he => ?_)
    (inFlight_startOpen idleWorld) (by simp) (by simp) hret
  have he' : s.deliver bytesLibfprint (.deviceOpened false) = some s' := he
  exact hs.complete rfl he'

end BiometricAuth
