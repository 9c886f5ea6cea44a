import BiometricAuth.Common.BioDev
import BiometricAuth.Lib.Machine

/-!
# The device list under hotplug

The framework keeps the list of all loaded drivers and, out of the same records,
the list of those that have a device connected. `bioDeviceListInit` builds the
second list at the start; from then on the two USB callbacks maintain it, each by
a test on the number of devices the driver has just discovered.

`bio_driver_list_init` registers both callbacks once for every entry of the id
table of every USB driver, whether the driver is enabled or not. libusb calls a
callback once for every registration with the ids of the device, so one event may
run it several times.

`ListInv` says what the device list is for. Attaching appends without looking
whether the driver is listed already, and never takes a driver off the list;
detaching never puts one on it. So an event keeps `ListInv` exactly if it `Fits`
what the driver had discovered before, and what it discovers from one call of the
event to the next.

Main results:

* `listInv_bioDeviceListInit` — the list is right at the start;
* `always_listInv_iff` — it stays right exactly along the events that fit.
-/

namespace BiometricAuth

/-- `bio_drv_list`. A record is allocated once, at the address `p : ι`. -/
structure DriverList (ι : Type*) where
  /-- The memory the addresses point to. -/
  dev : ι → BioDev
  /-- `bio_drv_list`. -/
  drvList : List ι
  /-- Every record is allocated on its own. -/
  drvList_nodup : drvList.Nodup

/-- `bio_drv_list` and `bio_dev_list`. -/
structure DeviceLists (ι : Type*) extends DriverList ι where
  /-- `bio_dev_list`. -/
  devList : List ι
  /-- What the last call of a driver's `ops_discover` returned. Nothing reads it. -/
  discovered : ι → Option ℤ

/-- A USB device comes or goes; `ops_discover`, when the callback calls it for the
`k`-th time, returns `counts k`. -/
inductive UsbEvent
  | attach (idVendor idProduct : ℕ) (counts : ℕ → ℤ)
  | detach (idVendor idProduct : ℕ) (counts : ℕ → ℤ)

/-- The test the callbacks make on a driver. The table ends at vendor 0; a
driver without a table has the empty one. -/
def BioDev.servesUsb (dev : BioDev) (idVendor idProduct : ℕ) : Bool :=
  dev.enable && dev.bustype == .usb &&
    (dev.idTable.takeWhile (·.1 ≠ 0)).contains (idVendor, idProduct)

/-- How often `bio_driver_list_init` registers each callback for these ids on behalf of
a driver: once for each entry of its table. It does not look at `enable`. -/
def BioDev.registrations (dev : BioDev) (idVendor idProduct : ℕ) : ℕ :=
  if dev.bustype = .usb then (dev.idTable.takeWhile (·.1 ≠ 0)).count (idVendor, idProduct) else 0

namespace DeviceLists

variable {ι : Type*} [DecidableEq ι]

/-- `dev->dev_num = dev->ops_discover(dev)`. -/
def discover (s : DeviceLists ι) (p : ι) (count : ℤ) : DeviceLists ι :=
  { s with
    dev := Function.update s.dev p { s.dev p with devNum := count }
    discovered := Function.update s.discovered p (some count) }

/-- The driver the callbacks choose: the first that serves the device. -/
def usbDriver (s : DeviceLists ι) (idVendor idProduct : ℕ) : Option ι :=
  s.drvList.find? fun p => (s.dev p).servesUsb idVendor idProduct

/-- One round of the loop of `bio_device_list_init`. -/
def initDriver (counts : ι → ℤ) (s : DeviceLists ι) (p : ι) : DeviceLists ι :=
  if (s.dev p).enable then
    let s := s.discover p (counts p)
    if (s.dev p).devNum > 0 then { s with devList := s.devList ++ [p] } else s
  else s

/-- `bio_device_list_init`, on the drivers `bio_driver_list_init` has loaded. -/
def bioDeviceListInit (drivers : DriverList ι) (counts : ι → ℤ) : DeviceLists ι :=
  drivers.drvList.foldl (initDriver counts)
    { drivers with devList := [], discovered := fun _ => none }

/-- `bio_usb_hotplug_callback_attach`. -/
def bioUsbHotplugCallbackAttach (s : DeviceLists ι) (idVendor idProduct : ℕ) (count : ℤ) :
    DeviceLists ι :=
  match s.usbDriver idVendor idProduct with
  | none => s
  | some p =>
    let s := s.discover p count
    if (s.dev p).devNum > 0 then { s with devList := s.devList ++ [p] } else s

/-- `bio_usb_hotplug_callback_detach`. `g_list_remove` takes the first occurrence. -/
def bioUsbHotplugCallbackDetach (s : DeviceLists ι) (idVendor idProduct : ℕ) (count : ℤ) :
    DeviceLists ι :=
  match s.usbDriver idVendor idProduct with
  | none => s
  | some p =>
    let s := s.discover p count
    if (s.dev p).devNum ≤ 0 then { s with devList := s.devList.erase p } else s

/-- The registrations of each callback for these ids. What they depend on never changes. -/
def registrations (s : DeviceLists ι) (idVendor idProduct : ℕ) : ℕ :=
  (s.drvList.map fun p => (s.dev p).registrations idVendor idProduct).sum

/-- libusb calls one of the callbacks, once for each registration. -/
def hotplug (s : DeviceLists ι) : UsbEvent → Option (DeviceLists ι)
  | .attach idVendor idProduct counts =>
    some ((List.range (s.registrations idVendor idProduct)).foldl
      (fun s k => s.bioUsbHotplugCallbackAttach idVendor idProduct (counts k)) s)
  | .detach idVendor idProduct counts =>
    some ((List.range (s.registrations idVendor idProduct)).foldl
      (fun s k => s.bioUsbHotplugCallbackDetach idVendor idProduct (counts k)) s)

/-! ### What the device list is for -/

/-- `p` is an enabled driver that has found a device when it last looked. -/
def Connected (s : DeviceLists ι) (p : ι) : Prop :=
  p ∈ s.drvList ∧ (s.dev p).enable = true ∧ ∃ count, s.discovered p = some count ∧ 0 < count

/-- The device list has the connected drivers, once each. -/
structure ListInv (s : DeviceLists ι) : Prop where
  nodup : s.devList.Nodup
  mem_iff : ∀ p, p ∈ s.devList ↔ s.Connected p

/-- The event agrees with what the driver in charge had discovered before: a device
comes to a driver that had none, and is found by the last call at the earliest; and
one that leaves others behind leaves them at a driver that had some, and every call
finds them. -/
def Fits (s : DeviceLists ι) : UsbEvent → Prop
  | .attach idVendor idProduct counts =>
    ∀ p, s.usbDriver idVendor idProduct = some p →
      ¬ s.Connected p ∧ ∀ k, k + 1 < s.registrations idVendor idProduct → counts k ≤ 0
  | .detach idVendor idProduct counts =>
    ∀ p, s.usbDriver idVendor idProduct = some p →
      0 < counts (s.registrations idVendor idProduct - 1) →
        s.Connected p ∧ ∀ k < s.registrations idVendor idProduct, 0 < counts k

omit [DecidableEq ι] in
theorem usbDriver_eq_some {s : DeviceLists ι} {idVendor idProduct : ℕ} {p : ι}
    (h : s.usbDriver idVendor idProduct = some p) :
    p ∈ s.drvList ∧ (s.dev p).enable = true := by
  refine ⟨List.mem_of_find?_eq_some h, ?_⟩
  have hserves := List.find?_some h
  simp only [BioDev.servesUsb, Bool.and_eq_true] at hserves
  exact hserves.1.1

@[simp] theorem discover_devNum (s : DeviceLists ι) (p : ι) (count : ℤ) :
    ((s.discover p count).dev p).devNum = count := by
  simp [discover]

@[simp] theorem discover_devList (s : DeviceLists ι) (p : ι) (count : ℤ) :
    (s.discover p count).devList = s.devList := rfl

@[simp] theorem discover_enable (s : DeviceLists ι) (p q : ι) (count : ℤ) :
    ((s.discover p count).dev q).enable = (s.dev q).enable := by
  by_cases hq : q = p
  · subst hq
    simp [discover]
  · simp [discover, hq]

/-- A discovery decides about its own driver and no other. -/
theorem connected_discover {s : DeviceLists ι} {p : ι} (hp : p ∈ s.drvList)
    (henable : (s.dev p).enable = true) (count : ℤ) (q : ι) :
    (s.discover p count).Connected q ↔ if q = p then 0 < count else s.Connected q := by
  unfold Connected
  rw [discover_enable]
  by_cases hq : q = p
  · subst hq
    simp [discover, hp, henable]
  · simp [discover, hq]

/-- What an event leaves behind at the driver `p` in charge. -/
theorem listInv_of_discover {s : DeviceLists ι} {p : ι} (hp : p ∈ s.drvList)
    (henable : (s.dev p).enable = true) (count : ℤ) (devs : List ι) :
    ListInv { s.discover p count with devList := devs } ↔
      devs.Nodup ∧ ∀ q, q ∈ devs ↔ if q = p then 0 < count else s.Connected q := by
  have hiff : ∀ q, Connected { s.discover p count with devList := devs } q ↔
      if q = p then 0 < count else s.Connected q := connected_discover hp henable count
  constructor
  · rintro ⟨hnodup, hmem⟩
    exact ⟨hnodup, fun q => (hmem q).trans (hiff q)⟩
  · rintro ⟨hnodup, hmem⟩
    exact ⟨hnodup, fun q => (hmem q).trans (hiff q).symm⟩

/-! ### One event -/

omit [DecidableEq ι] in
/-- The driver in charge has registered the callbacks itself. -/
theorem registrations_pos {s : DeviceLists ι} {idVendor idProduct : ℕ} {p : ι}
    (h : s.usbDriver idVendor idProduct = some p) : 0 < s.registrations idVendor idProduct := by
  have hserves := List.find?_some h
  simp only [BioDev.servesUsb, Bool.and_eq_true, beq_iff_eq, List.contains_iff_mem] at hserves
  have hcount : 0 < (s.dev p).registrations idVendor idProduct := by
    rw [BioDev.registrations, if_pos hserves.1.2]
    exact List.count_pos_iff.mpr hserves.2
  have hmem : (s.dev p).registrations idVendor idProduct ∈
      s.drvList.map fun p => (s.dev p).registrations idVendor idProduct :=
    List.mem_map_of_mem (List.mem_of_find?_eq_some h)
  exact hcount.trans_le (List.le_sum_of_mem hmem)

/-- A discovery does not change which driver is in charge. -/
@[simp] theorem usbDriver_discover (s : DeviceLists ι) (p : ι) (count : ℤ) (devs : List ι)
    (idVendor idProduct : ℕ) :
    usbDriver { s.discover p count with devList := devs } idVendor idProduct =
      s.usbDriver idVendor idProduct := by
  have hserves : ∀ q, ((s.discover p count).dev q).servesUsb idVendor idProduct =
      (s.dev q).servesUsb idVendor idProduct := by
    intro q
    by_cases hq : q = p
    · subst hq
      simp [discover, BioDev.servesUsb]
    · simp [discover, hq]
  simp only [usbDriver, hserves]
  rfl

/-- Of two discoveries the later one counts. -/
@[simp] theorem discover_discover (s : DeviceLists ι) (p : ι) (count count' : ℤ)
    (devs : List ι) : discover { s.discover p count with devList := devs } p count' =
      { s.discover p count' with devList := devs } := by
  simp [discover]

section Calls

variable {s : DeviceLists ι} {idVendor idProduct : ℕ} {p : ι}

/-- One call on behalf of the driver in charge. -/
theorem attach_of_usbDriver (h : s.usbDriver idVendor idProduct = some p) (count : ℤ) :
    s.bioUsbHotplugCallbackAttach idVendor idProduct count =
      { s.discover p count with
        devList := s.devList ++ List.replicate (if 0 < count then 1 else 0) p } := by
  unfold bioUsbHotplugCallbackAttach
  simp only [h, discover_devNum, discover_devList, gt_iff_lt]
  split
  next => rfl
  next => simp [discover]

theorem detach_of_usbDriver (h : s.usbDriver idVendor idProduct = some p) (count : ℤ) :
    s.bioUsbHotplugCallbackDetach idVendor idProduct count =
      { s.discover p count with
        devList := if 0 < count then s.devList else s.devList.erase p } := by
  unfold bioUsbHotplugCallbackDetach
  simp only [h, discover_devNum, discover_devList]
  by_cases hcount : 0 < count
  · rw [if_neg (not_le.mpr hcount), if_pos hcount]
    rfl
  · rw [if_pos (not_lt.mp hcount), if_neg hcount]

/-- After the calls of an attach the driver has been appended once for each that found a
device. -/
theorem foldl_attach (h : s.usbDriver idVendor idProduct = some p) (counts : ℕ → ℤ) (n : ℕ) :
    (List.range (n + 1)).foldl
        (fun s k => s.bioUsbHotplugCallbackAttach idVendor idProduct (counts k)) s =
      { s.discover p (counts n) with
        devList := s.devList ++
          List.replicate ((List.range (n + 1)).countP fun k => 0 < counts k) p } := by
  induction n with
  | zero =>
    rw [List.range_one, List.foldl_cons, List.foldl_nil, attach_of_usbDriver h]
    simp [List.countP_cons]
  | succ n ih =>
    rw [List.range_succ, List.foldl_append, ih, List.foldl_cons, List.foldl_nil,
      attach_of_usbDriver (by rwa [usbDriver_discover]), discover_discover]
    simp [List.countP_append, List.countP_cons, List.append_assoc]

/-- After those of a detach it has been taken off the list if one of them found no device. -/
theorem foldl_detach (h : s.usbDriver idVendor idProduct = some p) (hs : s.devList.Nodup)
    (counts : ℕ → ℤ) (n : ℕ) :
    (List.range (n + 1)).foldl
        (fun s k => s.bioUsbHotplugCallbackDetach idVendor idProduct (counts k)) s =
      { s.discover p (counts n) with
        devList := if ∀ k < n + 1, 0 < counts k then s.devList else s.devList.erase p } := by
  induction n with
  | zero =>
    rw [List.range_one, List.foldl_cons, List.foldl_nil, detach_of_usbDriver h]
    simp
  | succ n ih =>
    rw [List.range_succ, List.foldl_append, ih, List.foldl_cons, List.foldl_nil,
      detach_of_usbDriver (by rwa [usbDriver_discover]), discover_discover]
    have hlast : (∀ k < n + 1 + 1, 0 < counts k) ↔
        (∀ k < n + 1, 0 < counts k) ∧ 0 < counts (n + 1) := Nat.forall_lt_succ_right
    -- once the driver is off the list, taking it off again does nothing
    have herase : (s.devList.erase p).erase p = s.devList.erase p :=
      List.erase_of_not_mem hs.not_mem_erase
    by_cases hbefore : ∀ k < n + 1, 0 < counts k
    · rw [if_pos hbefore, ← if_congr (hlast.trans (and_iff_right hbefore)) rfl rfl]
    · rw [if_neg hbefore, if_neg fun hall => hbefore (hlast.mp hall).1, herase, ite_self]

end Calls

/-- Attaching keeps the list right exactly if the driver was not on it, and no call but the
last finds a device. -/
theorem listInv_attach_iff {s s' : DeviceLists ι} (hs : s.ListInv) {idVendor idProduct : ℕ}
    {counts : ℕ → ℤ} (h : s.hotplug (.attach idVendor idProduct counts) = some s') :
    s'.ListInv ↔ s.Fits (.attach idVendor idProduct counts) := by
  obtain rfl := Option.some.inj h
  -- without a driver of the id the calls do nothing
  cases hdriver : s.usbDriver idVendor idProduct with
  | none =>
    have hsame : (List.range (s.registrations idVendor idProduct)).foldl (fun s k =>
        s.bioUsbHotplugCallbackAttach idVendor idProduct (counts k)) s = s :=
      List.foldl_fixed' (fun k => by simp [bioUsbHotplugCallbackAttach, hdriver]) _
    rw [hsame]
    simpa [Fits, hdriver] using hs
  | some p =>
    obtain ⟨hp, henable⟩ := usbDriver_eq_some hdriver
    obtain ⟨n, hn⟩ := Nat.exists_eq_succ_of_ne_zero (registrations_pos hdriver).ne'
    -- as the list is right, the conditions can be read off it
    have hfits : s.Fits (.attach idVendor idProduct counts) ↔
        p ∉ s.devList ∧ ∀ k < n, counts k ≤ 0 := by
      simp [Fits, hdriver, hs.mem_iff p, hn]
    rw [hfits, hn, foldl_attach hdriver, listInv_of_discover hp henable]
    have hfound : (List.range (n + 1)).countP (fun k => decide (0 < counts k)) =
        (List.range n).countP (fun k => decide (0 < counts k)) +
          if 0 < counts n then 1 else 0 := by
      simp [List.range_succ, List.countP_append, List.countP_cons]
    constructor
    · -- the list is right afterwards: the driver is on it once at most, and only if the last call
      -- found it
      rintro ⟨hnodup, hmem⟩
      obtain ⟨-, honce, hdisjoint⟩ := List.nodup_append.mp hnodup
      have hle := List.nodup_replicate.mp honce
      -- a call that finds a device appends the driver, so the last call finds one, too
      have hlast : p ∈ s.devList ∨ 0 < (List.range (n + 1)).countP (fun k => 0 < counts k) →
          0 < counts n := by
        intro hor
        have hlisted : p ∈ s.devList ++
            List.replicate ((List.range (n + 1)).countP fun k => 0 < counts k) p := by
          rw [List.mem_append, List.mem_replicate]
          exact hor.imp_right fun hpos => ⟨hpos.ne', rfl⟩
        simpa using (hmem p).mp hlisted
      refine ⟨fun hlisted => ?_, fun k hk => not_lt.mp fun hpos => ?_⟩
      · rw [hfound, if_pos (hlast (.inl hlisted))] at hdisjoint
        exact hdisjoint p hlisted p (by simp) rfl
      · have hearly : 0 < (List.range n).countP fun k => decide (0 < counts k) :=
          List.countP_pos_iff.mpr ⟨k, List.mem_range.mpr hk, decide_eq_true hpos⟩
        rw [hfound, if_pos (hlast (.inr (by omega)))] at hle
        omega
    · -- at most the last call appends the driver, which is a new one
      rintro ⟨hnew, hearly⟩
      have hnone : (List.range n).countP (fun k => decide (0 < counts k)) = 0 := by
        refine List.countP_eq_zero.mpr fun k hk => ?_
        simpa using hearly k (List.mem_range.mp hk)
      rw [hfound, hnone, Nat.zero_add]
      split
      next hcount =>
        rw [List.replicate_one, List.nodup_append_comm, List.singleton_append, List.nodup_cons]
        refine ⟨⟨hnew, hs.nodup⟩, fun q => ?_⟩
        by_cases hq : q = p
        · simp [hq, hcount]
        · simp [hq, hs.mem_iff q]
      next hcount =>
        -- Nothing was found, and the driver stays where it was.
        rw [List.replicate_zero, List.append_nil]
        refine ⟨hs.nodup, fun q => ?_⟩
        by_cases hq : q = p
        · simp [hq, hnew, hcount]
        · simp [hq, hs.mem_iff q]

/-- Detaching keeps the list right exactly if the last call finds a device only of a driver that
is on it and stays there through every call. -/
theorem listInv_detach_iff {s s' : DeviceLists ι} (hs : s.ListInv) {idVendor idProduct : ℕ}
    {counts : ℕ → ℤ} (h : s.hotplug (.detach idVendor idProduct counts) = some s') :
    s'.ListInv ↔ s.Fits (.detach idVendor idProduct counts) := by
  obtain rfl := Option.some.inj h
  -- without a driver of the id the calls do nothing
  cases hdriver : s.usbDriver idVendor idProduct with
  | none =>
    have hsame : (List.range (s.registrations idVendor idProduct)).foldl (fun s k =>
        s.bioUsbHotplugCallbackDetach idVendor idProduct (counts k)) s = s :=
      List.foldl_fixed' (fun k => by simp [bioUsbHotplugCallbackDetach, hdriver]) _
    rw [hsame]
    simpa [Fits, hdriver] using hs
  | some p =>
    obtain ⟨hp, henable⟩ := usbDriver_eq_some hdriver
    obtain ⟨n, hn⟩ := Nat.exists_eq_succ_of_ne_zero (registrations_pos hdriver).ne'
    -- as the list is right, the conditions can be read off it
    have hfits : s.Fits (.detach idVendor idProduct counts) ↔
        (0 < counts n → p ∈ s.devList ∧ ∀ k < n + 1, 0 < counts k) := by
      simp [Fits, hdriver, hs.mem_iff p, hn]
    rw [hfits, hn, foldl_detach hdriver hs.nodup, listInv_of_discover hp henable]
    by_cases hall : ∀ k < n + 1, 0 < counts k
    · -- no call takes the driver off
      have hpos := hall n (Nat.lt_succ_self n)
      rw [if_pos hall]
      constructor
      · rintro ⟨-, hmem⟩ -
        exact ⟨(hmem p).mpr (by simpa using hpos), hall⟩
      · intro himp
        obtain ⟨hlisted, -⟩ := himp hpos
        refine ⟨hs.nodup, fun q => ?_⟩
        by_cases hq : q = p
        · simp [hq, hlisted, hpos]
        · simp [hq, hs.mem_iff q]
    · -- one of the calls takes the driver off, and no later one brings it back
      rw [if_neg hall]
      have hiff : (0 < counts n → p ∈ s.devList ∧ ∀ k < n + 1, 0 < counts k) ↔ ¬ 0 < counts n :=
        ⟨fun himp hpos => hall (himp hpos).2, fun hneg hpos => absurd hpos hneg⟩
      rw [hiff]
      constructor
      · rintro ⟨-, hmem⟩ hpos
        have hlisted := (hmem p).mpr (by simpa using hpos)
        exact hs.nodup.not_mem_erase hlisted
      · intro hcount
        refine ⟨hs.nodup.erase p, fun q => ?_⟩
        rw [hs.nodup.mem_erase_iff]
        by_cases hq : q = p
        · simp [hq, hcount]
        · simp [hq, hs.mem_iff q]

/-! ### The start -/

/-- The loop of `bio_device_list_init` after the drivers `ps`. -/
theorem listInv_foldl_initDriver (drivers : DriverList ι) (counts : ι → ℤ) (ps : List ι)
    (hnodup : ps.Nodup) (hsub : ps ⊆ drivers.drvList) :
    let s := ps.foldl (initDriver counts)
      { drivers with devList := [], discovered := fun _ => none }
    s.ListInv ∧ s.drvList = drivers.drvList ∧ ∀ p, p ∉ ps → s.discovered p = none := by
  induction ps using List.reverseRecOn with
  | nil =>
    refine ⟨⟨List.nodup_nil, fun p => ?_⟩, rfl, fun p _ => rfl⟩
    simp [Connected]
  | append_singleton ps p ih =>
    rw [List.nodup_append_comm, List.singleton_append, List.nodup_cons] at hnodup
    have hpmem : p ∈ drivers.drvList := hsub (by simp)
    obtain ⟨hinv, hdrv, hnone⟩ := ih hnodup.2 fun q hq => hsub (by simp [hq])
    rw [List.foldl_append, List.foldl_cons, List.foldl_nil]
    set s := ps.foldl (initDriver counts)
      { drivers with devList := [], discovered := fun _ => none } with hs
    unfold initDriver
    split
    next henable =>
      have hp : p ∈ s.drvList := hdrv ▸ hpmem
      -- The driver has not been asked before, so it is not on the list yet.
      have hnew : p ∉ s.devList := by
        rw [hinv.mem_iff p]
        rintro ⟨-, -, count, hcount, -⟩
        simp [hnone p hnodup.1] at hcount
      have hrest : ∀ q, q ∉ ps ++ [p] →
          Function.update s.discovered p (some (counts p)) q = none := by
        intro q hq
        rw [List.mem_append, List.mem_singleton, not_or] at hq
        simpa [hq.2] using hnone q hq.1
      simp only [discover_devNum, discover_devList]
      split
      next hcount =>
        refine ⟨(listInv_of_discover hp henable _ _).mpr ⟨?_, fun q => ?_⟩, hdrv, hrest⟩
        · rw [List.nodup_append_comm, List.singleton_append, List.nodup_cons]
          exact ⟨hnew, hinv.nodup⟩
        · by_cases hq : q = p
          · simp [hq, hcount]
          · simp [hq, hinv.mem_iff q]
      next hcount =>
        refine ⟨(listInv_of_discover hp henable _ s.devList).mpr
          ⟨hinv.nodup, fun q => ?_⟩, hdrv, hrest⟩
        by_cases hq : q = p
        · simp [hq, hnew, hcount]
        · simp [hq, hinv.mem_iff q]
    next =>
      -- a driver that is not enabled is passed over
      exact ⟨hinv, hdrv, fun q hq => hnone q fun h => hq (by simp [h])⟩

/-- `bio_device_list_init` lists the connected drivers. -/
theorem listInv_bioDeviceListInit (drivers : DriverList ι) (counts : ι → ℤ) :
    (bioDeviceListInit drivers counts).ListInv :=
  (listInv_foldl_initDriver drivers counts drivers.drvList drivers.drvList_nodup
    (List.Subset.refl _)).1

/-! ### Runs -/

/-- The device list is right after every event exactly if every event fits. -/
theorem always_listInv_iff (drivers : DriverList ι) (counts : ι → ℤ) (events : List UsbEvent) :
    Machine.Always hotplug ListInv (bioDeviceListInit drivers counts) events ↔
      Machine.Along hotplug Fits (bioDeviceListInit drivers counts) events := by
  have htotal : ∀ (s : DeviceLists ι) e, ∃ s', s.hotplug e = some s' := by
    intro s e
    cases e with
    | attach => exact ⟨_, rfl⟩
    | detach => exact ⟨_, rfl⟩
  refine Machine.always_iff_along htotal ?_ (listInv_bioDeviceListInit drivers counts) events
  intro s e s' hs hstep
  cases e with
  | attach => exact listInv_attach_iff hs hstep
  | detach => exact listInv_detach_iff hs hstep

/-- One enabled USB driver. -/
def oneDriver : DriverList Unit where
  dev _ :=
    { driverId := 0, deviceName := "uru4000", enable := true, devNum := 0,
      biotype := .fingerPrint, eigtype := .eigenvalue, bustype := .usb,
      idTable := [(0x05ba, 0x000a)], devStatus := 0, opsResult := 0, notifyMid := 0 }
  drvList := [()]
  drvList_nodup := List.nodup_singleton ()

/-- A second reader of the same model puts its driver on the list again. -/
theorem not_always_listInv_oneDriver :
    ¬ Machine.Always hotplug ListInv (bioDeviceListInit oneDriver fun _ => 1)
      [.attach 0x05ba 0x000a fun _ => 2] := by
  intro h
  have hinv : ListInv ((bioDeviceListInit oneDriver fun _ => 1).bioUsbHotplugCallbackAttach
      0x05ba 0x000a 2) := h.2 _ rfl
  have htwice : ((bioDeviceListInit oneDriver fun _ => 1).bioUsbHotplugCallbackAttach
      0x05ba 0x000a 2).devList = [(), ()] := by decide
  have hnodup := hinv.nodup
  rw [htwice] at hnodup
  exact absurd hnodup (by decide)

end DeviceLists

end BiometricAuth
