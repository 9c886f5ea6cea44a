import BiometricAuth.Lib.Machine

/-!
# The shared context

All community drivers of a daemon work on one libfprint context. The first of them to be initialised
makes it and leaves the pointer in a segment of shared memory, with a counter `d_count`; the others
take the pointer from there. The last one to be freed releases the context and the segment. Who is
first is decided by a lock on a file, which the first driver keeps until it is freed.

A segment stays when its daemon is killed, and then has a pointer into memory that is gone. The lock
does not tell whether a context is still in use either: the first driver is also the first to be
freed, and gives the lock up while the others go on.

A daemon holds a lock on its PID file, which is in `/run/user/0/` or, where there is no such
directory, in `/tmp/`. So two daemons can run at once if the directory comes or goes.

Main results:

* `shared_context_iff`: the drivers of every daemon share a context of their own throughout a run
  exactly when the first driver of each daemon gets the lock, and while no daemon has a driver;
* `shared_context_of_pidFile`: so they do as long as `/run/user/0/` stays as it is, and nobody else
  locks the file.
-/

namespace BiometricAuth

/-! ### The processes and what they share -/

/-- `shared_number`, the segment of shared memory. Contexts are numbered in the order in which
`fp_context_new` makes them. -/
structure SharedNumber where
  ctx : Option ℕ
  /-- `devices` is not `NULL`. -/
  devices : Bool
  dCount : ℤ
deriving DecidableEq, Repr

/-- What a driver has of it in its `driver_info`. -/
structure ContextUser where
  /-- `fd` has the lock of the file. -/
  locks : Bool
  ctx : Option ℕ
deriving DecidableEq, Repr

/-- How far a daemon is. -/
inductive DaemonPhase
  /-- In `bio_driver_list_init`. -/
  | loading
  | running
  /-- In `bio_free_driver`, and after it. -/
  | unloading
deriving DecidableEq, Repr

/-- A daemon that has the lock of its PID file. -/
structure DaemonProcess where
  phase : DaemonPhase
  /-- `bio_drv_list`. -/
  drivers : List ContextUser
  /-- The contexts that have been made and not been released. -/
  live : List ℕ
deriving DecidableEq, Repr

/-- The directories of the PID file. -/
inductive PidDir
  | runUser | tmp
deriving DecidableEq, Repr

/-- Who has the lock of `/tmp/biometric_shared_file`. -/
inductive LockHolder
  | daemon (pid : ℕ)
  | other
deriving DecidableEq, Repr

/-- The processes of a host, and what outlives them. -/
structure Host where
  /-- There is a directory `/run/user/0/`. -/
  runUser : Bool
  /-- Who has the lock of the PID file of a directory. -/
  pidFile : PidDir → Option ℕ
  sharedFile : Option LockHolder
  /-- The segment of the key, if there is one. -/
  segment : Option SharedNumber
  daemons : ℕ → Option DaemonProcess
  nextCtx : ℕ
  /-- Some daemon has followed a pointer that it must not. -/
  crashed : Bool

namespace Host

/-- The process is replaced by `d`. -/
def setDaemon (s : Host) (pid : ℕ) (d : DaemonProcess) : Host :=
  { s with daemons := Function.update s.daemons pid (some d) }

/-- The process is gone, and its locks with it. -/
def die (s : Host) (pid : ℕ) : Host :=
  { s with
    daemons := Function.update s.daemons pid none
    pidFile := fun dir => if s.pidFile dir = some pid then none else s.pidFile dir
    sharedFile := if s.sharedFile = some (.daemon pid) then none else s.sharedFile }

/-- The process dies of a wrong pointer. -/
def crash (s : Host) (pid : ℕ) : Host := { s.die pid with crashed := true }

/-- The directory that `main` chooses for the PID file. -/
def pidDir (s : Host) : PidDir := if s.runUser = true then .runUser else .tmp

/-- `main` up to the lock of the PID file; where another process has it the daemon exits. -/
def start (s : Host) (pid : ℕ) : Host :=
  if s.pidFile s.pidDir = none then
    { s.setDaemon pid ⟨.loading, [], []⟩ with
      pidFile := Function.update s.pidFile s.pidDir (some pid) }
  else s

/-- `set_fp_common_context`, called by `community_ops_driver_init`, which drops its result. Whether
the file can be opened, and whether libfprint has a list of devices, is given. -/
def setFpCommonContext (s : Host) (pid : ℕ) (d : DaemonProcess) (opened devices : Bool) : Host :=
  if opened = true ∧ s.sharedFile = none then
    let ctx := s.nextCtx
    let s := { s with
      sharedFile := some (.daemon pid)
      nextCtx := ctx + 1
      -- without devices it returns before `d_count` and the driver's pointers are set
      segment := some ⟨some ctx, devices, if devices = true then 1 else 0⟩ }
    s.setDaemon pid { d with
      drivers := d.drivers ++ [⟨true, if devices = true then some ctx else none⟩]
      live := ctx :: d.live }
  else
    match s.segment with
    | none => s.crash pid
    | some share =>
      let s := { s with segment := some { share with dCount := share.dCount + 1 } }
      s.setDaemon pid { d with drivers := d.drivers ++ [⟨false, share.ctx⟩] }

/-- `device_discover`, as far as it follows `share->devices`. -/
def deviceDiscover (s : Host) (pid : ℕ) (d : DaemonProcess) : Host :=
  match s.segment with
  | none => s.crash pid
  | some share =>
    if share.devices = true ∧ (share.ctx.any fun ctx => ctx ∈ d.live) = true then s
    else s.crash pid

/-- `community_ops_free` of the driver `user`; `rest` are the drivers after it. -/
def communityOpsFree (s : Host) (pid : ℕ) (d : DaemonProcess) (user : ContextUser)
    (rest : List ContextUser) : Host :=
  match s.segment with
  | none => s.crash pid
  | some share =>
    let dCount := share.dCount - 1
    -- `close (priv->fd)`
    let sharedFile := if user.locks = true then none else s.sharedFile
    if dCount = 0 then
      -- `g_object_unref (NULL)` does nothing but complain
      if (user.ctx.all fun ctx => ctx ∈ d.live) = true then
        { s with segment := none, sharedFile }.setDaemon pid
          { d with drivers := rest, live := d.live.filter fun ctx => user.ctx ≠ some ctx }
      else { s with segment := some { share with dCount } }.crash pid
    else
      { s with segment := some { share with dCount }, sharedFile }.setDaemon pid
        { d with drivers := rest }

end Host

/-- A step on the host. -/
inductive HostAction
  /-- A daemon is started. -/
  | start (pid : ℕ)
  /-- A driver is initialised. -/
  | init (pid : ℕ) (opened devices : Bool)
  /-- The driver list is complete. -/
  | loaded (pid : ℕ)
  /-- A driver looks for devices, from `bio_device_list_init` or when one is plugged in or out. That
  is while the daemon runs: an event handled when the drivers are being freed is left out. -/
  | discover (pid : ℕ)
  /-- The main loop is left, or the driver list is given up. -/
  | unload (pid : ℕ)
  /-- The first driver of the list is freed. -/
  | free (pid : ℕ)
  | exit (pid : ℕ)
  | kill (pid : ℕ)
  /-- `/run/user/0/` is made. -/
  | login
  /-- `/run/user/0/` is removed, with what is in it. -/
  | logout
  /-- Some other program locks the shared file. -/
  | lock
  | unlock
deriving DecidableEq, Repr

/-- A step on the host; `none` where it is not enabled. -/
def Host.step (s : Host) : HostAction → Option Host
  | .start pid => if s.daemons pid = none then some (s.start pid) else none
  | .init pid opened devices => do
    let d ← s.daemons pid
    if d.phase = .loading then some (s.setFpCommonContext pid d opened devices) else none
  | .loaded pid => do
    let d ← s.daemons pid
    if d.phase = .loading then some (s.setDaemon pid { d with phase := .running }) else none
  | .discover pid => do
    let d ← s.daemons pid
    if d.phase = .running ∧ d.drivers ≠ [] then some (s.deviceDiscover pid d) else none
  | .unload pid => do
    let d ← s.daemons pid
    if d.phase ≠ .unloading then some (s.setDaemon pid { d with phase := .unloading }) else none
  | .free pid => do
    let d ← s.daemons pid
    match d.phase, d.drivers with
    | .unloading, user :: rest => some (s.communityOpsFree pid d user rest)
    | _, _ => none
  | .exit pid => do
    let d ← s.daemons pid
    if d.phase = .unloading ∧ d.drivers = [] then some (s.die pid) else none
  | .kill pid => (s.daemons pid).map fun _ => s.die pid
  | .login => some { s with runUser := true }
  | .logout =>
    some { s with runUser := false, pidFile := Function.update s.pidFile .runUser none }
  | .lock => if s.sharedFile = none then some { s with sharedFile := some .other } else none
  | .unlock => if s.sharedFile = some .other then some { s with sharedFile := none } else none

/-- A host without daemons, on which an earlier one may have left a segment. -/
def Host.init (runUser : Bool) (segment : Option SharedNumber) (nextCtx : ℕ) : Host where
  runUser := runUser
  pidFile := fun _ => none
  sharedFile := none
  segment := segment
  daemons := fun _ => none
  nextCtx := nextCtx
  crashed := false

/-! ### What is to hold -/

/-- The drivers of a daemon share a context, which is the only one of the process that has not been
released, and the segment counts them; without drivers there is no context. -/
def DaemonProcess.Shares (d : DaemonProcess) (segment : Option SharedNumber) : Prop :=
  if d.drivers = [] then d.live = []
  else ∃ ctx, d.live = [ctx] ∧ (∀ user ∈ d.drivers, user.ctx = some ctx) ∧
    segment = some ⟨some ctx, true, d.drivers.length⟩

/-- No daemon has crashed, and the drivers of each share a context of their own. -/
structure Host.Shares (s : Host) : Prop where
  crashed : s.crashed = false
  daemons : ∀ pid d, s.daemons pid = some d → d.Shares s.segment

/-- The first driver of a daemon gets the lock and a list of devices, while no daemon has a
driver. -/
def Host.FirstAlone (s : Host) : HostAction → Prop
  | .init pid opened devices => ∀ d, s.daemons pid = some d → d.phase = .loading → d.drivers = [] →
    opened = true ∧ devices = true ∧ s.sharedFile = none ∧
      ∀ pid' d', s.daemons pid' = some d' → d'.drivers = []
  | _ => True

/-! ### The invariant -/

/-- What holds of a daemon. -/
structure DaemonProcess.Ok (d : DaemonProcess) (s : Host) (pid : ℕ) : Prop where
  shares : d.Shares s.segment
  fresh : ∀ ctx ∈ d.live, ctx < s.nextCtx
  /-- While drivers are loaded the first one keeps the lock. -/
  locked : d.phase = .loading → d.drivers ≠ [] → s.sharedFile = some (.daemon pid)

/-- The invariant of the runs in which the first driver is alone. -/
structure HostInv (s : Host) : Prop where
  crashed : s.crashed = false
  daemons : ∀ pid d, s.daemons pid = some d → d.Ok s pid
  /-- Only one daemon has drivers. -/
  alone : ∀ pid pid' d d', s.daemons pid = some d → s.daemons pid' = some d' → d.drivers ≠ [] →
    d'.drivers ≠ [] → pid = pid'
  /-- The lock of a daemon is that of a driver. -/
  lock : ∀ pid, s.sharedFile = some (.daemon pid) →
    ∃ d, s.daemons pid = some d ∧ ∃ user ∈ d.drivers, user.locks = true

section Invariant

variable {s s' : Host} {pid : ℕ} {d d' : DaemonProcess}

theorem DaemonProcess.shares_iff_of_ne {segment : Option SharedNumber} (hne : d.drivers ≠ []) :
    d.Shares segment ↔ ∃ ctx, d.live = [ctx] ∧ (∀ user ∈ d.drivers, user.ctx = some ctx) ∧
      segment = some ⟨some ctx, true, d.drivers.length⟩ := by
  rw [DaemonProcess.Shares, if_neg hne]

theorem DaemonProcess.Ok.live_eq_nil (h : d.Ok s pid) (hnil : d.drivers = []) : d.live = [] := by
  have hshares := h.shares
  rwa [DaemonProcess.Shares, if_pos hnil] at hshares

/-- Without drivers a daemon does not depend on the others. -/
theorem DaemonProcess.Ok.idle (h : d.Ok s pid) (hnil : d.drivers = []) (s' : Host) :
    d.Ok s' pid where
  shares := by
    rw [DaemonProcess.Shares, if_pos hnil]
    exact h.live_eq_nil hnil
  fresh := by simp [h.live_eq_nil hnil]
  locked _ hne := absurd hnil hne

theorem HostInv.shares (h : HostInv s) : s.Shares :=
  ⟨h.crashed, fun pid d hd => (h.daemons pid d hd).shares⟩

theorem hostInv_init (runUser : Bool) (segment : Option SharedNumber) (nextCtx : ℕ) :
    HostInv (Host.init runUser segment nextCtx) :=
  ⟨rfl, by simp [Host.init], by simp [Host.init], by simp [Host.init]⟩

/-- A step after which one daemon is another one. -/
theorem HostInv.replace (h : HostInv s)
    (hdaemons : s'.daemons = Function.update s.daemons pid (some d'))
    (hcrashed : s'.crashed = false) (hok : d'.Ok s' pid)
    (hothers : ∀ q e, q ≠ pid → s.daemons q = some e → e.Ok s' q)
    (halone : d'.drivers ≠ [] → ∀ q e, q ≠ pid → s.daemons q = some e → e.drivers = [])
    (hlock : s'.sharedFile = some (.daemon pid) → ∃ user ∈ d'.drivers, user.locks = true)
    (hlock' : ∀ q, q ≠ pid → s'.sharedFile = some (.daemon q) →
      s.sharedFile = some (.daemon q)) : HostInv s' where
  crashed := hcrashed
  -- what holds of each daemon holds of the new one and, as before, of the others
  daemons q e hq := by
    rw [hdaemons] at hq
    by_cases heq : q = pid
    · subst heq
      rw [Function.update_self, Option.some.injEq] at hq
      exact hq ▸ hok
    · rw [Function.update_of_ne heq] at hq
      exact hothers q e heq hq
  -- two daemons with drivers are one: with the new one there is no other
  alone q q' e e' hq hq' he he' := by
    rw [hdaemons] at hq hq'
    by_cases heq : q = pid
    · by_cases heq' : q' = pid
      · exact heq.trans heq'.symm
      · subst heq
        rw [Function.update_self, Option.some.injEq] at hq
        rw [Function.update_of_ne heq'] at hq'
        exact absurd (halone (hq ▸ he) q' e' heq' hq') he'
    · rw [Function.update_of_ne heq] at hq
      by_cases heq' : q' = pid
      · subst heq'
        rw [Function.update_self, Option.some.injEq] at hq'
        exact absurd (halone (hq' ▸ he') q e heq hq) he
      · rw [Function.update_of_ne heq'] at hq'
        exact h.alone q q' e e' hq hq' he he'
  -- the lock is the new one's, or that of the daemon that had it
  lock q hq := by
    by_cases heq : q = pid
    · subst heq
      exact ⟨d', by rw [hdaemons, Function.update_self], hlock hq⟩
    · obtain ⟨e, he, huser⟩ := h.lock q (hlock' q heq hq)
      exact ⟨e, by rw [hdaemons, Function.update_of_ne heq, he], huser⟩

/-- The end of a process. -/
theorem HostInv.die (h : HostInv s) (pid : ℕ) : HostInv (s.die pid) := by
  have hdaemons : ∀ {q e}, (s.die pid).daemons q = some e → q ≠ pid ∧ s.daemons q = some e := by
    intro q e hq
    by_cases heq : q = pid
    · subst heq
      simp [Host.die] at hq
    · exact ⟨heq, by simpa [Host.die, heq] using hq⟩
  have hfile : ∀ {q}, (s.die pid).sharedFile = some (.daemon q) ↔
      q ≠ pid ∧ s.sharedFile = some (.daemon q) := by
    intro q
    by_cases hpid : s.sharedFile = some (.daemon pid)
    · refine iff_of_false (by simp [Host.die, hpid]) fun hq => hq.1 ?_
      exact (LockHolder.daemon.inj (Option.some.inj (hpid.symm.trans hq.2))).symm
    · rw [show (s.die pid).sharedFile = s.sharedFile from if_neg hpid]
      exact ⟨fun hq => ⟨fun heq => hpid (heq ▸ hq), hq⟩, And.right⟩
  refine ⟨h.crashed, fun q e hq => ?_, fun q q' e e' hq hq' => ?_, fun q hq => ?_⟩
  · obtain ⟨hne, hq⟩ := hdaemons hq
    have hok := h.daemons q e hq
    exact ⟨hok.shares, hok.fresh, fun hphase he => hfile.mpr ⟨hne, hok.locked hphase he⟩⟩
  · exact h.alone q q' e e' (hdaemons hq).2 (hdaemons hq').2
  · obtain ⟨hne, hq⟩ := hfile.mp hq
    obtain ⟨e, he, huser⟩ := h.lock q hq
    exact ⟨e, by simp [Host.die, hne, he], huser⟩

/-- The first driver makes the context. -/
theorem HostInv.initFirst (h : HostInv s) (hd : s.daemons pid = some d) (hnil : d.drivers = [])
    (hfile : s.sharedFile = none) (hidle : ∀ q e, s.daemons q = some e → e.drivers = []) :
    HostInv (s.setFpCommonContext pid d true true) := by
  have hlive := (h.daemons pid d hd).live_eq_nil hnil
  rw [Host.setFpCommonContext, if_pos ⟨rfl, hfile⟩]
  refine h.replace rfl h.crashed ⟨?_, ?_, fun _ _ => rfl⟩
    (fun q e _ hq => (h.daemons q e hq).idle (hidle q e hq) _) (fun _ q e _ => hidle q e)
    (fun _ => ⟨⟨true, some s.nextCtx⟩, by simp, rfl⟩) fun q hne hq => ?_
  · rw [DaemonProcess.shares_iff_of_ne (by simp)]
    exact ⟨s.nextCtx, by rw [hlive], by simp [hnil], by simp [hnil, Host.setDaemon]⟩
  · simp [hlive, Host.setDaemon]
  · exact absurd (LockHolder.daemon.inj (Option.some.inj hq)).symm hne

/-- The other drivers take it over. -/
theorem HostInv.initOther (h : HostInv s) (hd : s.daemons pid = some d)
    (hphase : d.phase = .loading) (hne : d.drivers ≠ []) (opened devices : Bool) :
    HostInv (s.setFpCommonContext pid d opened devices) := by
  have hok := h.daemons pid d hd
  have hfile := hok.locked hphase hne
  obtain ⟨ctx, hlive, husers, hsegment⟩ := (DaemonProcess.shares_iff_of_ne hne).mp hok.shares
  have hidle : ∀ q e, q ≠ pid → s.daemons q = some e → e.drivers = [] := fun q e hq he =>
    by_contra fun hdrivers => hq (h.alone q pid e d he hd hdrivers hne)
  rw [Host.setFpCommonContext, if_neg (by simp [hfile]), hsegment]
  refine h.replace rfl h.crashed ⟨?_, hok.fresh, fun _ _ => hfile⟩
    (fun q e hq he => (h.daemons q e he).idle (hidle q e hq he) _) (fun _ => hidle)
    (fun hlock => ?_) fun q _ hq => hq
  · rw [DaemonProcess.shares_iff_of_ne (by simp)]
    refine ⟨ctx, hlive, fun user huser => ?_, by simp [Host.setDaemon]⟩
    rcases List.mem_append.mp huser with huser | huser
    · exact husers user huser
    · rw [List.mem_singleton.mp huser]
  · obtain ⟨e, he, user, huser, hlocks⟩ := h.lock pid hlock
    obtain rfl := Option.some.inj (hd.symm.trans he)
    exact ⟨user, List.mem_append_left _ huser, hlocks⟩

/-- A driver is freed, the last one with the context. -/
theorem HostInv.free (h : HostInv s) (hd : s.daemons pid = some d) (hphase : d.phase = .unloading)
    {user : ContextUser} {rest : List ContextUser} (hdrivers : d.drivers = user :: rest) :
    HostInv (s.communityOpsFree pid d user rest) := by
  have hok := h.daemons pid d hd
  have hne : d.drivers ≠ [] := by simp [hdrivers]
  -- the drivers of the daemon share a context, and no other daemon has a driver
  obtain ⟨ctx, hlive, husers, hsegment⟩ := (DaemonProcess.shares_iff_of_ne hne).mp hok.shares
  have hidle : ∀ q e, q ≠ pid → s.daemons q = some e → e.drivers = [] := fun q e hq he =>
    by_contra fun hdrivers => hq (h.alone q pid e d he hd hdrivers hne)
  have hothers : ∀ s' q e, q ≠ pid → s.daemons q = some e → e.Ok s' q := fun s' q e hq he =>
    (h.daemons q e he).idle (hidle q e hq he) s'
  have hctx : user.ctx = some ctx := husers user (by simp [hdrivers])
  have hcount : (d.drivers.length : ℤ) - 1 = rest.length := by simp [hdrivers]
  have hloading : d.phase ≠ .loading := by simp [hphase]
  -- the lock goes with the driver that has it
  have hlock : (if user.locks = true then none else s.sharedFile) = some (.daemon pid) →
      ∃ user ∈ rest, user.locks = true := by
    intro hlock
    split at hlock
    · cases hlock
    next hlocks =>
      obtain ⟨e, he, user', huser', hlocks'⟩ := h.lock pid hlock
      obtain rfl := Option.some.inj (hd.symm.trans he)
      rw [hdrivers, List.mem_cons] at huser'
      rcases huser' with rfl | huser'
      · exact absurd hlocks' hlocks
      · exact ⟨user', huser', hlocks'⟩
  have hlock' : ∀ q, q ≠ pid →
      (if user.locks = true then none else s.sharedFile) = some (.daemon q) →
        s.sharedFile = some (.daemon q) := by
    intro q _ hq
    split at hq
    · cases hq
    · exact hq
  rw [Host.communityOpsFree, hsegment]
  simp only [hcount, hctx, hlive, Option.all_some, List.mem_singleton, decide_true, if_true]
  -- the last driver: the context is released, and the segment goes
  by_cases hlast : (rest.length : ℤ) = 0
  · have hrest : rest = [] := by simpa using hlast
    subst hrest
    rw [if_pos hlast]
    refine h.replace rfl h.crashed ⟨?_, ?_, fun hphase' => absurd hphase' hloading⟩ (hothers _)
      (fun _ => hidle) hlock hlock'
    · simp [DaemonProcess.Shares]
    · simp
  · -- the others keep the context, which the segment still counts them in
    have hrest : rest ≠ [] := by simpa using hlast
    rw [if_neg hlast]
    refine h.replace rfl h.crashed ⟨?_, ?_, fun hphase' => absurd hphase' hloading⟩ (hothers _)
      (fun _ => hidle) hlock hlock'
    · rw [DaemonProcess.shares_iff_of_ne hrest]
      exact ⟨ctx, rfl, fun user' huser' => husers user' (by simp [hdrivers, huser']), rfl⟩
    · exact hlive ▸ hok.fresh

/-- A daemon that goes on to another phase. -/
theorem HostInv.setPhase (h : HostInv s) (hd : s.daemons pid = some d) {phase : DaemonPhase}
    (hphase : phase ≠ .loading) : HostInv (s.setDaemon pid { d with phase }) := by
  have hok := h.daemons pid d hd
  refine h.replace rfl h.crashed ⟨hok.shares, hok.fresh, fun hloading => absurd hloading hphase⟩
    (fun q e _ he => ⟨(h.daemons q e he).shares, (h.daemons q e he).fresh,
      (h.daemons q e he).locked⟩)
    (fun hne q e hq he => ?_) (fun hlock => ?_) fun q _ hq => hq
  · exact by_contra fun hdrivers => hq (h.alone q pid e d he hd hdrivers hne)
  · obtain ⟨e, he, huser⟩ := h.lock pid hlock
    obtain rfl := Option.some.inj (hd.symm.trans he)
    exact huser

/-- A daemon that is started has no drivers. -/
theorem HostInv.start (h : HostInv s) (hd : s.daemons pid = none) : HostInv (s.start pid) := by
  rw [Host.start]
  split
  · refine h.replace rfl h.crashed ⟨?_, by simp, fun _ hne => absurd rfl hne⟩
      (fun q e _ he => ⟨(h.daemons q e he).shares, (h.daemons q e he).fresh,
        (h.daemons q e he).locked⟩)
      (fun hne => absurd rfl hne) (fun hlock => ?_) fun q _ hq => hq
    · simp [DaemonProcess.Shares]
    · obtain ⟨e, he, -⟩ := h.lock pid hlock
      cases hd.symm.trans he
  · exact h

/-- A driver finds the devices of its own context. -/
theorem HostInv.discover (h : HostInv s) (hd : s.daemons pid = some d) (hne : d.drivers ≠ []) :
    s.deviceDiscover pid d = s := by
  obtain ⟨ctx, hlive, -, hsegment⟩ :=
    (DaemonProcess.shares_iff_of_ne hne).mp (h.daemons pid d hd).shares
  simp [Host.deviceDiscover, hsegment, hlive]

/-- A step that changes neither the daemons nor the segment. -/
theorem HostInv.other (h : HostInv s) (hdaemons : s'.daemons = s.daemons)
    (hsegment : s'.segment = s.segment) (hnext : s'.nextCtx = s.nextCtx)
    (hcrashed : s'.crashed = s.crashed)
    (hfile : ∀ q, s'.sharedFile = some (.daemon q) ↔ s.sharedFile = some (.daemon q)) :
    HostInv s' where
  crashed := hcrashed.trans h.crashed
  daemons q e hq := by
    have hok := h.daemons q e (hdaemons ▸ hq)
    exact ⟨hsegment ▸ hok.shares, hnext ▸ hok.fresh, fun hphase hne =>
      (hfile q).mpr (hok.locked hphase hne)⟩
  alone := hdaemons ▸ h.alone
  lock q hq := hdaemons ▸ h.lock q ((hfile q).mp hq)

/-- **Step lemma.** -/
theorem HostInv.step (h : HostInv s) {a : HostAction} (ha : s.FirstAlone a)
    (hstep : s.step a = some s') : HostInv s' := by
  cases a with
  | start pid =>
    obtain ⟨hd, hs'⟩ := Option.ite_none_right_eq_some.mp hstep
    obtain rfl := Option.some.inj hs'
    exact h.start hd
  | init pid opened devices =>
    obtain ⟨d, hd, hstep⟩ := Option.bind_eq_some_iff.mp hstep
    obtain ⟨hphase, hs'⟩ := Option.ite_none_right_eq_some.mp hstep
    obtain rfl := Option.some.inj hs'
    -- the first driver of a daemon makes the segment, every other one finds it
    by_cases hnil : d.drivers = []
    · obtain ⟨rfl, rfl, hfile, hidle⟩ := ha d hd hphase hnil
      exact h.initFirst hd hnil hfile hidle
    · exact h.initOther hd hphase hnil opened devices
  | loaded pid =>
    obtain ⟨d, hd, hstep⟩ := Option.bind_eq_some_iff.mp hstep
    obtain ⟨-, hs'⟩ := Option.ite_none_right_eq_some.mp hstep
    obtain rfl := Option.some.inj hs'
    exact h.setPhase hd (by simp)
  | discover pid =>
    -- the pointers are those of a context of its own, so nothing happens
    obtain ⟨d, hd, hstep⟩ := Option.bind_eq_some_iff.mp hstep
    obtain ⟨⟨-, hne⟩, hs'⟩ := Option.ite_none_right_eq_some.mp hstep
    obtain rfl := Option.some.inj hs'
    rwa [h.discover hd hne]
  | unload pid =>
    obtain ⟨d, hd, hstep⟩ := Option.bind_eq_some_iff.mp hstep
    obtain ⟨-, hs'⟩ := Option.ite_none_right_eq_some.mp hstep
    obtain rfl := Option.some.inj hs'
    exact h.setPhase hd (by simp)
  | free pid =>
    -- a driver is freed, if one is left
    obtain ⟨d, hd, hstep⟩ := Option.bind_eq_some_iff.mp hstep
    split at hstep
    next user rest hphase hdrivers =>
      obtain rfl := Option.some.inj hstep
      exact h.free hd hphase hdrivers
    next => cases hstep
  | exit pid =>
    obtain ⟨d, -, hstep⟩ := Option.bind_eq_some_iff.mp hstep
    obtain ⟨-, hs'⟩ := Option.ite_none_right_eq_some.mp hstep
    obtain rfl := Option.some.inj hs'
    exact h.die pid
  | kill pid =>
    obtain ⟨d, -, rfl⟩ := Option.map_eq_some_iff.mp hstep
    exact h.die pid
  | login =>
    -- `/run/user/0/` comes and goes, and a daemon has nothing of its drivers there
    obtain rfl := Option.some.inj hstep
    exact h.other rfl rfl rfl rfl fun _ => Iff.rfl
  | logout =>
    obtain rfl := Option.some.inj hstep
    exact h.other rfl rfl rfl rfl fun _ => Iff.rfl
  | lock =>
    -- the file is only locked while no daemon has it, so no daemon loses its lock
    obtain ⟨hfile, hs'⟩ := Option.ite_none_right_eq_some.mp hstep
    obtain rfl := Option.some.inj hs'
    exact h.other rfl rfl rfl rfl fun _ => by simp [hfile]
  | unlock =>
    obtain ⟨hfile, hs'⟩ := Option.ite_none_right_eq_some.mp hstep
    obtain rfl := Option.some.inj hs'
    exact h.other rfl rfl rfl rfl fun _ => by simp [hfile]

/-- A first driver that is not alone crashes, or has no context of its own, or takes the segment
away from the others. -/
theorem HostInv.not_shares (h : HostInv s) {a : HostAction} (ha : ¬ s.FirstAlone a)
    (hstep : s.step a = some s') : ¬ s'.Shares := by
  cases a with
  | init pid opened devices =>
    obtain ⟨d, hd, hstep⟩ := Option.bind_eq_some_iff.mp hstep
    obtain ⟨hphase, hs'⟩ := Option.ite_none_right_eq_some.mp hstep
    obtain rfl := Option.some.inj hs'
    intro hshares
    -- the driver was the first of its daemon, and not alone
    simp only [Host.FirstAlone, not_forall] at ha
    obtain ⟨d', hd', -, hnil, hfirst⟩ := ha
    obtain rfl := Option.some.inj (hd.symm.trans hd')
    have hlive := (h.daemons pid d hd).live_eq_nil hnil
    rw [Host.setFpCommonContext] at hshares
    split at hshares
    next hlock =>
      -- it gets the lock, and the segment becomes its own
      have hown := hshares.daemons pid _ (Function.update_self ..)
      rw [DaemonProcess.shares_iff_of_ne (by simp)] at hown
      obtain ⟨ctx, -, husers, -⟩ := hown
      obtain rfl : devices = true := by
        have hctx := husers _ (by simp [hnil]; rfl)
        by_contra hdevices
        simp [hdevices] at hctx
      -- another daemon has a driver, whose segment is gone
      refine hfirst ⟨hlock.1, rfl, hlock.2, fun q e he => by_contra fun hne => ?_⟩
      have hq : q ≠ pid := by
        rintro rfl
        obtain rfl := Option.some.inj (hd.symm.trans he)
        exact hne hnil
      have hother := hshares.daemons q e ((Function.update_of_ne hq ..).trans he)
      obtain ⟨ctx', hlive', -, hsegment⟩ := (DaemonProcess.shares_iff_of_ne hne).mp hother
      have hfresh := (h.daemons q e he).fresh ctx' (by simp [hlive'])
      obtain rfl : s.nextCtx = ctx' := by
        have hsegment' := congrArg SharedNumber.ctx (Option.some.inj hsegment)
        exact Option.some.inj hsegment'
      exact lt_irrefl _ hfresh
    next =>
      -- it does not get it: without a segment the daemon crashes
      split at hshares
      · cases hshares.crashed
      next share _ =>
        -- the pointer that it has taken over is not one of its own
        have hown := hshares.daemons pid _ (Function.update_self ..)
        rw [DaemonProcess.shares_iff_of_ne (by simp)] at hown
        obtain ⟨ctx, hctx, -⟩ := hown
        cases hlive.symm.trans hctx
  | start | loaded | discover | unload | free | exit | kill | login | logout | lock | unlock =>
    exact absurd trivial ha

end Invariant

/-! ### Runs -/

/-- **When the drivers share a context of their own.** From a host on which an earlier daemon may
have left anything, with daemons that are started, run, unload and are killed at any point, the
drivers of every daemon share one living context of its process, which goes with the last of them,
and nothing else is ever followed, exactly when every first driver gets the lock while no daemon has
a driver. -/
theorem shared_context_iff (runUser : Bool) (segment : Option SharedNumber) (nextCtx : ℕ)
    (as : List HostAction) :
    Machine.Always Host.step Host.Shares (Host.init runUser segment nextCtx) as ↔
      Machine.Along Host.step Host.FirstAlone (Host.init runUser segment nextCtx) as := by
  refine Machine.always_iff_along_of_keeps (fun _ => HostInv.shares) (fun s a hnone => ?_)
    (fun _ _ _ h ha => h.step ha) (fun _ _ _ h ha => h.not_shares ha)
    (hostInv_init runUser segment nextCtx) as
  cases a with
  | init pid opened devices =>
    intro d hd hphase
    simp [Host.step, hd, hphase] at hnone
  | start | loaded | discover | unload | free | exit | kill | login | logout | lock | unlock =>
    trivial

/-- Once there is a `/run/user/0/` a second daemon can be started, and follows a pointer of the
first. -/
example : (Machine.run Host.step (Host.init false none 0) [.start 1, .init 1 true true, .loaded 1,
    .login, .start 2, .init 2 true true, .loaded 2, .discover 2]).map Host.crashed = some true := by
  decide

/-- A step that leaves `/run/user/0/` and the lock of the shared file alone, where opening the file
and listing the devices succeed. -/
def HostAction.Quiet : HostAction → Prop
  | .init _ opened devices => opened = true ∧ devices = true
  | .login | .logout | .lock | .unlock => False
  | _ => True

/-- Every daemon has the lock of the one PID file, and nobody else that of the shared file. -/
structure OneDaemon (runUser : Bool) (s : Host) : Prop where
  runUser : s.runUser = runUser
  pidFile : ∀ pid d, s.daemons pid = some d → s.pidFile s.pidDir = some pid
  sharedFile : s.sharedFile ≠ some .other

section OneDaemon

variable {runUser : Bool} {s s' : Host} {pid : ℕ} {d d' : DaemonProcess}

theorem oneDaemon_init (runUser : Bool) (segment : Option SharedNumber) (nextCtx : ℕ) :
    OneDaemon runUser (Host.init runUser segment nextCtx) :=
  ⟨rfl, by simp [Host.init], by simp [Host.init]⟩

theorem OneDaemon.eq (h : OneDaemon runUser s) {pid' : ℕ} (hd : s.daemons pid = some d)
    (hd' : s.daemons pid' = some d') : pid = pid' :=
  Option.some.inj ((h.pidFile pid d hd).symm.trans (h.pidFile pid' d' hd'))

theorem OneDaemon.replace (h : OneDaemon runUser s) (hd : s.daemons pid = some d)
    (hrunUser : s'.runUser = s.runUser) (hpidFile : s'.pidFile = s.pidFile)
    (hdaemons : s'.daemons = Function.update s.daemons pid (some d'))
    (hfile : s'.sharedFile ≠ some .other) : OneDaemon runUser s' where
  runUser := hrunUser.trans h.runUser
  pidFile q e hq := by
    rw [Host.pidDir, hrunUser, hpidFile]
    rw [hdaemons] at hq
    by_cases heq : q = pid
    · exact heq ▸ h.pidFile pid d hd
    · rw [Function.update_of_ne heq] at hq
      exact h.pidFile q e hq
  sharedFile := hfile

theorem OneDaemon.die (h : OneDaemon runUser s) (hd : s.daemons pid = some d)
    (hrunUser : s'.runUser = s.runUser)
    (hdaemons : s'.daemons = Function.update s.daemons pid none)
    (hfile : s'.sharedFile = some .other → s.sharedFile = some .other) :
    OneDaemon runUser s' where
  runUser := hrunUser.trans h.runUser
  pidFile q e hq := by
    rw [hdaemons] at hq
    by_cases heq : q = pid
    · rw [heq, Function.update_self] at hq
      cases hq
    · -- there was no other one
      rw [Function.update_of_ne heq] at hq
      exact absurd (h.eq hq hd) heq
  sharedFile := fun hother => h.sharedFile (hfile hother)

theorem OneDaemon.start (h : OneDaemon runUser s) (pid : ℕ) :
    OneDaemon runUser (s.start pid) := by
  rw [Host.start]
  split
  next hfree =>
    refine ⟨h.runUser, fun q e hq => ?_, h.sharedFile⟩
    by_cases heq : q = pid
    · subst heq
      exact Function.update_self ..
    · have hq' : s.daemons q = some e := by
        simpa [Host.setDaemon, Function.update_of_ne heq] using hq
      cases (h.pidFile q e hq').symm.trans hfree
  next => exact h

/-- What a process does to its own lock. -/
theorem OneDaemon.sharedFile_ite (h : OneDaemon runUser s) (p : Prop) [Decidable p] :
    (if p then none else s.sharedFile) ≠ some .other := by
  split
  · simp
  · exact h.sharedFile

theorem OneDaemon.die_self (h : OneDaemon runUser s) (hd : s.daemons pid = some d) :
    OneDaemon runUser (s.die pid) :=
  h.die hd rfl rfl fun hother => absurd hother (h.sharedFile_ite _)

/-- **Step lemma.** -/
theorem OneDaemon.step (h : OneDaemon runUser s) {a : HostAction} (ha : a.Quiet)
    (hstep : s.step a = some s') : OneDaemon runUser s' := by
  cases a with
  | start pid =>
    obtain ⟨-, hs'⟩ := Option.ite_none_right_eq_some.mp hstep
    obtain rfl := Option.some.inj hs'
    exact h.start pid
  | init pid opened devices =>
    obtain ⟨d, hd, hstep⟩ := Option.bind_eq_some_iff.mp hstep
    obtain ⟨-, hs'⟩ := Option.ite_none_right_eq_some.mp hstep
    obtain rfl := Option.some.inj hs'
    -- the daemon gets the lock and makes the segment, or takes one over, or crashes
    rw [Host.setFpCommonContext]
    split
    · exact h.replace hd rfl rfl rfl (by simp [Host.setDaemon])
    · split
      · exact h.die hd rfl rfl fun hother => absurd hother (h.sharedFile_ite _)
      · exact h.replace hd rfl rfl rfl h.sharedFile
  | loaded pid =>
    obtain ⟨d, hd, hstep⟩ := Option.bind_eq_some_iff.mp hstep
    obtain ⟨-, hs'⟩ := Option.ite_none_right_eq_some.mp hstep
    obtain rfl := Option.some.inj hs'
    exact h.replace hd rfl rfl rfl h.sharedFile
  | discover pid =>
    obtain ⟨d, hd, hstep⟩ := Option.bind_eq_some_iff.mp hstep
    obtain ⟨-, hs'⟩ := Option.ite_none_right_eq_some.mp hstep
    obtain rfl := Option.some.inj hs'
    -- the pointer is one of its own, or the daemon crashes
    rw [Host.deviceDiscover]
    split
    · exact h.die hd rfl rfl fun hother => absurd hother (h.sharedFile_ite _)
    · split
      · exact h
      · exact h.die hd rfl rfl fun hother => absurd hother (h.sharedFile_ite _)
  | unload pid =>
    obtain ⟨d, hd, hstep⟩ := Option.bind_eq_some_iff.mp hstep
    obtain ⟨-, hs'⟩ := Option.ite_none_right_eq_some.mp hstep
    obtain rfl := Option.some.inj hs'
    exact h.replace hd rfl rfl rfl h.sharedFile
  | free pid =>
    obtain ⟨d, hd, hstep⟩ := Option.bind_eq_some_iff.mp hstep
    split at hstep
    next user rest _ _ =>
      obtain rfl := Option.some.inj hstep
      -- the last driver takes the segment with it; at a wrong pointer the daemon crashes
      rw [Host.communityOpsFree]
      split
      · exact h.die hd rfl rfl fun hother => absurd hother (h.sharedFile_ite _)
      · dsimp only
        split
        · split
          · exact h.replace hd rfl rfl rfl (h.sharedFile_ite _)
          · exact h.die hd rfl rfl fun hother => absurd hother (h.sharedFile_ite _)
        · exact h.replace hd rfl rfl rfl (h.sharedFile_ite _)
    next => cases hstep
  | exit pid =>
    obtain ⟨d, hd, hstep⟩ := Option.bind_eq_some_iff.mp hstep
    obtain ⟨-, hs'⟩ := Option.ite_none_right_eq_some.mp hstep
    obtain rfl := Option.some.inj hs'
    exact h.die_self hd
  | kill pid =>
    obtain ⟨d, hd, rfl⟩ := Option.map_eq_some_iff.mp hstep
    exact h.die_self hd
  | login | logout | lock | unlock => exact ha.elim

/-- The first driver of the only daemon is alone. -/
theorem OneDaemon.firstAlone (h : OneDaemon runUser s) (hinv : HostInv s) {a : HostAction}
    (ha : a.Quiet) : s.FirstAlone a := by
  cases a with
  | init pid opened devices =>
    intro d hd _ hnil
    have hidle : ∀ q e, s.daemons q = some e → e.drivers = [] := by
      intro q e he
      obtain rfl := h.eq hd he
      rwa [← Option.some.inj (hd.symm.trans he)]
    refine ⟨ha.1, ha.2, ?_, hidle⟩
    cases hfile : s.sharedFile with
    | none => rfl
    | some holder =>
      cases holder with
      | other => exact absurd hfile h.sharedFile
      | daemon q =>
        obtain ⟨e, he, user, huser, -⟩ := hinv.lock q hfile
        rw [hidle q e he] at huser
        cases huser
  | login | logout | lock | unlock => exact ha.elim
  | start | loaded | discover | unload | free | exit | kill => trivial

end OneDaemon

/-- **The PID file protects the context.** As long as `/run/user/0/` stays as it is and nobody else
locks the shared file, there is at most one daemon at any time of a run, and its drivers share a
context of its own. -/
theorem shared_context_of_pidFile (runUser : Bool) (segment : Option SharedNumber) (nextCtx : ℕ)
    {as : List HostAction} (hquiet : ∀ a ∈ as, a.Quiet) :
    Machine.Always Host.step
      (fun s => s.Shares ∧ ∀ pid pid' d d', s.daemons pid = some d → s.daemons pid' = some d' →
        pid = pid') (Host.init runUser segment nextCtx) as := by
  have halong : Machine.Along Host.step (fun _ a => a.Quiet)
      (Host.init runUser segment nextCtx) as :=
    Machine.along_of_invariant (I := fun _ => True) (fun _ _ _ ha => ha)
      (fun _ _ _ _ _ _ => trivial) trivial hquiet
  have halways := halong.always (P := fun s => HostInv s ∧ OneDaemon runUser s)
    (fun s a s' h ha hstep => ⟨h.1.step (h.2.firstAlone h.1 ha) hstep, h.2.step ha hstep⟩)
    ⟨hostInv_init .., oneDaemon_init ..⟩
  exact halways.mono fun s h => ⟨h.1.shares, fun _ _ _ _ hd hd' => h.2.eq hd hd'⟩

/-- A daemon is killed with two drivers, which leaves its segment behind, and another one is started
and goes through. -/
def restartedRun : List HostAction :=
  [.start 1, .init 1 true true, .init 1 true true, .loaded 1, .discover 1, .start 2, .kill 1,
    .start 2, .init 2 true true, .init 2 true true, .loaded 2, .discover 2, .unload 2, .free 2,
    .free 2, .exit 2]

theorem shared_context_of_pidFile_restarted :
    ((Machine.run Host.step (Host.init true none 0) restartedRun).map fun s =>
        (s.segment, s.daemons 2)) = some (none, none) ∧
      Machine.Always Host.step
        (fun s => s.Shares ∧ ∀ pid pid' d d', s.daemons pid = some d → s.daemons pid' = some d' →
          pid = pid') (Host.init true none 0) restartedRun := by
  refine ⟨by decide, shared_context_of_pidFile true none 0 ?_⟩
  simp [restartedRun, HostAction.Quiet]

end BiometricAuth
