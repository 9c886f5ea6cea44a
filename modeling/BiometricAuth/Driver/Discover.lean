import BiometricAuth.Common.CInt

/-!
# Discovering devices: `device_discover`

libfprint reports the devices that are plugged in, of all makes, in a shared list. A driver
walks over that list, leaves each device in `share->device`, and counts the ones that libfprint
runs with its own driver. The walk does not pass over a device of another make: it ends there,
and the function returns `0`.

libfprint's `fp_device_get_driver` is a parameter, the devices are of any type.

Main result: `deviceDiscover_counts_iff` — the count is right exactly when all devices are the
driver's, or none is.
-/

namespace BiometricAuth

section Discover

variable {δ : Type} (fpDeviceGetDriver : δ → String)

/-- The loop of `device_discover`: the devices from index `i` on, with `deviceNum` counted. It
returns the number and `share->device`; `none` when an `int` overflows. -/
def discoverLoop (communityDriverId : String) : List δ → ℤ → ℤ → Option δ → Option (ℤ × Option δ)
  | [], _, deviceNum, device => some (deviceNum, device)
  | d :: devices, i, deviceNum, _ =>
    if fpDeviceGetDriver d = communityDriverId then do
      let deviceNum ← cInt (deviceNum + 1)
      let i ← cInt (i + 1)
      discoverLoop communityDriverId devices i deviceNum (some d)
    else
      -- a device of another make
      some (0, some d)

/-- `device_discover`, with what `share->device` has been before. -/
def deviceDiscover (communityDriverId : String) (devices : List δ) (device : Option δ) :
    Option (ℤ × Option δ) :=
  if devices.length = 0 then some (0, device)
  else discoverLoop fpDeviceGetDriver communityDriverId devices 0 0 device

/-- `community_ops_discover`, with the environment; a variable that is not set is compared as
`NULL`. -/
def communityOpsDiscover (getenv : String → Option String) (communityDriverId : String)
    (devices : List δ) (device : Option δ) : Option (ℤ × Option δ) := do
  let level ← getenv "BIO_PRINT_LEVEL"
  let _ ← if level = "7" then getenv "BIO_PRINT_COLOR" else some ""
  let (ret, device) ← deviceDiscover fpDeviceGetDriver communityDriverId devices device
  if ret < 0 then some (-1, device)
  else if ret = 0 then some (0, device)
  else some (ret, device)

/-- The devices of the driver. -/
def ownDevices (communityDriverId : String) (devices : List δ) : List δ :=
  devices.filter fun d => fpDeviceGetDriver d = communityDriverId

/-! ### The walk over the list -/

variable {fpDeviceGetDriver} {communityDriverId : String}

variable (fpDeviceGetDriver communityDriverId) in
/-- What the walk does: over devices of the driver it counts, and it ends with `0` at the first
other one. -/
theorem discoverLoop_cases (devices : List δ) {n : ℤ} (hn : 0 ≤ n) (hlt : n < 2 ^ 31)
    (device : Option δ) :
    ((∀ d ∈ devices, fpDeviceGetDriver d = communityDriverId) ∧
        discoverLoop fpDeviceGetDriver communityDriverId devices n n device =
          if n + devices.length < 2 ^ 31 then
            some (n + devices.length, devices.getLast?.or device)
          else none) ∨
      (∃ d ∈ devices, fpDeviceGetDriver d ≠ communityDriverId) ∧
        ∀ ret device', discoverLoop fpDeviceGetDriver communityDriverId devices n n device =
          some (ret, device') → ret = 0 := by
  -- by induction on the devices, with the counter where it is
  induction devices generalizing n device with
  | nil =>
    have hlt' : n + (([] : List δ).length : ℤ) < 2 ^ 31 := by simpa using hlt
    refine .inl ⟨by simp, ?_⟩
    rw [if_pos hlt']
    simp [discoverLoop]
  | cons d devices ih =>
    unfold discoverLoop
    by_cases hd : fpDeviceGetDriver d = communityDriverId
    · -- a device of the driver: it is counted, if the counter is not at its end
      rw [if_pos hd]
      by_cases hmax : n + 1 < 2 ^ 31
      · have hnext : cInt (n + 1) = some (n + 1) := cInt_eq_some ⟨by omega, hmax⟩
        simp only [hnext, Option.bind_eq_bind, Option.bind_some]
        cases ih (by omega) hmax (some d) with
        | inl hown =>
          obtain ⟨hall, hloop⟩ := hown
          refine .inl ⟨List.forall_mem_cons.mpr ⟨hd, hall⟩, ?_⟩
          have hlength : n + ((d :: devices).length : ℤ) = n + 1 + devices.length := by
            rw [List.length_cons]
            push_cast
            omega
          have hlast : (d :: devices).getLast?.or device = devices.getLast?.or (some d) := by
            rw [List.getLast?_cons]
            cases devices.getLast? <;> rfl
          rw [hloop, hlength, hlast]
        | inr hother =>
          -- a later device is another one
          obtain ⟨⟨d', hd', hne⟩, hzero⟩ := hother
          exact .inr ⟨⟨d', List.mem_cons_of_mem d hd', hne⟩, hzero⟩
      · -- `++deviceNum` overflows
        have hover : cInt (n + 1) = none := cInt_eq_none (by omega)
        simp only [hover, Option.bind_eq_bind, Option.bind_none]
        -- the walk does not return; whether it counted devices of the driver alone decides the case
        by_cases hall : ∀ d' ∈ devices, fpDeviceGetDriver d' = communityDriverId
        · refine .inl ⟨List.forall_mem_cons.mpr ⟨hd, hall⟩, (if_neg ?_).symm⟩
          rw [List.length_cons]
          push_cast
          omega
        · push Not at hall
          obtain ⟨d', hd', hne⟩ := hall
          refine .inr ⟨⟨d', List.mem_cons_of_mem d hd', hne⟩, fun ret device' h => ?_⟩
          cases h
    · -- another device: the walk ends with `0`
      rw [if_neg hd]
      refine .inr ⟨⟨d, List.mem_cons_self, hd⟩, fun ret device' h => ?_⟩
      exact (Prod.mk.inj (Option.some.inj h)).1.symm

/-! ### What is counted -/

variable (fpDeviceGetDriver communityDriverId) in
/-- What is asked of a result: it is the number of the devices of the driver, and if there are
any, `share->device` is one of them. -/
def CountsOwn (devices : List δ) (result : Option (ℤ × Option δ)) : Prop :=
  ∃ n device, result = some (n, device) ∧
    n = (ownDevices fpDeviceGetDriver communityDriverId devices).length ∧
    (0 < n → ∃ d ∈ ownDevices fpDeviceGetDriver communityDriverId devices, device = some d)

variable (fpDeviceGetDriver communityDriverId) in
/-- All devices are of one make: the driver's, or none of them is. -/
def OneMake (devices : List δ) : Prop :=
  (∀ d ∈ devices, fpDeviceGetDriver d = communityDriverId) ∧ devices.length < 2 ^ 31 ∨
    ∀ d ∈ devices, fpDeviceGetDriver d ≠ communityDriverId

theorem ownDevices_of_all {devices : List δ}
    (h : ∀ d ∈ devices, fpDeviceGetDriver d = communityDriverId) :
    ownDevices fpDeviceGetDriver communityDriverId devices = devices :=
  List.filter_eq_self.mpr fun d hd => decide_eq_true (h d hd)

theorem ownDevices_eq_nil {devices : List δ} :
    ownDevices fpDeviceGetDriver communityDriverId devices = [] ↔
      ∀ d ∈ devices, fpDeviceGetDriver d ≠ communityDriverId := by
  simp [ownDevices]

theorem countsOwn_iff (devices : List δ) (device : Option δ) :
    CountsOwn fpDeviceGetDriver communityDriverId devices
        (deviceDiscover fpDeviceGetDriver communityDriverId devices device) ↔
      OneMake fpDeviceGetDriver communityDriverId devices := by
  unfold deviceDiscover
  cases hdevices : devices with
  | nil =>
    -- no device, no walk
    refine iff_of_true ⟨0, device, if_pos rfl, rfl, fun h => absurd h (lt_irrefl 0)⟩ (.inr ?_)
    exact fun d hd => absurd hd List.not_mem_nil
  | cons first rest =>
    rw [← hdevices, if_neg (by rw [hdevices]; exact Nat.succ_ne_zero _)]
    have hfirst : first ∈ devices := hdevices ▸ List.mem_cons_self
    cases discoverLoop_cases fpDeviceGetDriver communityDriverId devices (le_refl 0) (by decide)
      device with
    | inl hown =>
      -- all devices are of the driver
      obtain ⟨hall, hloop⟩ := hown
      rw [hloop, zero_add]
      by_cases hlength : (devices.length : ℤ) < 2 ^ 31
      · -- all are counted, and the last one is taken
        rw [if_pos hlength]
        refine iff_of_true ⟨_, _, rfl, ?_, fun _ => ?_⟩ (.inl ⟨hall, by exact_mod_cast hlength⟩)
        · rw [ownDevices_of_all hall]
        · rw [ownDevices_of_all hall]
          obtain ⟨last, hlast⟩ := Option.isSome_iff_exists.mp
            (List.getLast?_isSome.mpr (List.ne_nil_of_mem hfirst))
          exact ⟨last, List.mem_of_getLast? hlast, by rw [hlast]; rfl⟩
      · -- there are too many for an `int`
        rw [if_neg hlength]
        refine iff_of_false ?_ ?_
        · rintro ⟨n, device', hn, -⟩
          cases hn
        · rintro (⟨-, hlt⟩ | hnone)
          · exact hlength (by exact_mod_cast hlt)
          · exact hnone first hfirst (hall first hfirst)
    | inr hother =>
      -- one of them is another one: the walk ends with `0`, which is right only if none is of the
      -- driver
      obtain ⟨⟨d, hd, hne⟩, hzero⟩ := hother
      constructor
      · rintro ⟨n, device', hn, hcount, -⟩
        rw [hzero n device' hn] at hcount
        have hlength : (ownDevices fpDeviceGetDriver communityDriverId devices).length = 0 := by
          exact_mod_cast hcount.symm
        exact .inr (ownDevices_eq_nil.mp (List.length_eq_zero_iff.mp hlength))
      · rintro (⟨hall, -⟩ | hnone)
        · exact absurd (hall d hd) hne
        · -- the first device ends the walk
          have hnil := ownDevices_eq_nil.mpr hnone
          refine ⟨0, some first, ?_, by rw [hnil]; rfl, fun h => absurd h (lt_irrefl 0)⟩
          rw [hdevices, discoverLoop, if_neg (hnone first hfirst)]

variable (fpDeviceGetDriver) in
/-- **Counting devices.** The function returns the number of the driver's devices, leaves one of
them in `share->device` if there are any, and does so in whatever order they are reported, exactly
when all devices are of one make. -/
theorem deviceDiscover_counts_iff (communityDriverId : String) (devices : List δ)
    (device : Option δ) :
    (CountsOwn fpDeviceGetDriver communityDriverId devices
        (deviceDiscover fpDeviceGetDriver communityDriverId devices device) ∧
      ∀ devices' : List δ, devices'.Perm devices →
        (deviceDiscover fpDeviceGetDriver communityDriverId devices' device).map Prod.fst =
          (deviceDiscover fpDeviceGetDriver communityDriverId devices device).map Prod.fst) ↔
      OneMake fpDeviceGetDriver communityDriverId devices := by
  rw [countsOwn_iff]
  refine and_iff_left_of_imp fun h devices' hperm => ?_
  have h' : OneMake fpDeviceGetDriver communityDriverId devices' :=
    h.imp (fun hall => ⟨fun d hd => hall.1 d (hperm.mem_iff.mp hd), hperm.length_eq ▸ hall.2⟩)
      fun hnone d hd => hnone d (hperm.mem_iff.mp hd)
  obtain ⟨n, found, hn, hcount, -⟩ := (countsOwn_iff devices device).mpr h
  obtain ⟨n', found', hn', hcount', -⟩ := (countsOwn_iff devices' device).mpr h'
  have hlength : (ownDevices fpDeviceGetDriver communityDriverId devices').length =
      (ownDevices fpDeviceGetDriver communityDriverId devices).length :=
    (hperm.filter _).length_eq
  rw [hn, hn', Option.map_some, Option.map_some, hcount, hcount', hlength]

/-- Two readers of different makes, listed by their driver names: the one of the driver is not
counted. -/
theorem not_deviceDiscover_counts : ¬ ∀ (devices : List String) (device : Option String),
    CountsOwn id "uru4000" devices (deviceDiscover id "uru4000" devices device) ∧
      ∀ devices' : List String, devices'.Perm devices →
        (deviceDiscover id "uru4000" devices' device).map Prod.fst =
          (deviceDiscover id "uru4000" devices device).map Prod.fst := by
  intro h
  obtain ⟨n, device, hn, hcount, -⟩ := (h ["uru4000", "aes4000"] none).1
  have hresult : deviceDiscover id "uru4000" ["uru4000", "aes4000"] none =
      some (0, some "aes4000") := by decide
  obtain ⟨rfl, -⟩ := Prod.mk.inj (Option.some.inj (hresult.symm.trans hn))
  exact absurd hcount (by decide)

/-! ### The operation -/

/-- The number is never negative. -/
theorem deviceDiscover_nonneg {devices : List δ} {device device' : Option δ} {ret : ℤ}
    (h : deviceDiscover fpDeviceGetDriver communityDriverId devices device = some (ret, device')) :
    0 ≤ ret := by
  unfold deviceDiscover at h
  split at h
  · exact (Prod.mk.inj (Option.some.inj h)).1.le
  · cases discoverLoop_cases fpDeviceGetDriver communityDriverId devices (le_refl 0) (by decide)
      device with
    | inl hown =>
      rw [hown.2] at h
      split at h
      · have hret := (Prod.mk.inj (Option.some.inj h)).1
        omega
      · cases h
    | inr hother => exact (hother.2 ret device' h).ge

/-- With the environment set, `community_ops_discover` returns what `device_discover` does: the
branch for a failed discovery is never taken. -/
theorem communityOpsDiscover_eq {getenv : String → Option String}
    (hlevel : getenv "BIO_PRINT_LEVEL" ≠ none) (hcolor : getenv "BIO_PRINT_COLOR" ≠ none)
    (devices : List δ) (device : Option δ) :
    communityOpsDiscover fpDeviceGetDriver getenv communityDriverId devices device =
      deviceDiscover fpDeviceGetDriver communityDriverId devices device := by
  obtain ⟨level, hlevel⟩ := Option.ne_none_iff_exists'.mp hlevel
  obtain ⟨color, hcolor⟩ := Option.ne_none_iff_exists'.mp hcolor
  -- whatever the level, the driver's discovery is called and its result looked at
  have hresult : communityOpsDiscover fpDeviceGetDriver getenv communityDriverId devices device =
      (deviceDiscover fpDeviceGetDriver communityDriverId devices device).bind fun result =>
        if result.1 < 0 then some (-1, result.2)
        else if result.1 = 0 then some (0, result.2)
        else some (result.1, result.2) := by
    by_cases hdebug : level = "7"
    · simp [communityOpsDiscover, hlevel, hcolor, hdebug]
    · simp [communityOpsDiscover, hlevel, hdebug]
  rw [hresult]
  cases hdiscover : deviceDiscover fpDeviceGetDriver communityDriverId devices device with
  | none => rfl
  | some result =>
    obtain ⟨ret, device'⟩ := result
    -- which is never negative
    have hret : 0 ≤ ret := deviceDiscover_nonneg hdiscover
    rw [Option.bind_some, if_neg (by exact not_lt.mpr hret)]
    by_cases hzero : ret = 0
    · rw [if_pos hzero, hzero]
    · rw [if_neg hzero]

end Discover

end BiometricAuth
