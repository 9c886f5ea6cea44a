import Mathlib.Data.List.Infix

/-!
# The discover tool of the community drivers

`community-multidevice-discover-tool` prints the drivers that libfprint has a device for. It is
installed once, with a link `usb-` for every driver; a link is about its own driver, and the tool
itself about the drivers that it is given, or about all it knows.

What libfprint reports is a parameter: the driver ids of its devices, or `none` where there is no
list.
-/

namespace BiometricAuth

/-- The drivers of `community_define.h`. -/
def communityDrivers : List String :=
  ["upekts", "uru4000", "aes4000", "aes2501", "upektc", "aes1610", "fdu2000", "vcom5s",
    "upeksonly", "vfs101", "vfs301", "aes2550", "aes1660", "aes2660", "aes3500", "upektc_img",
    "etes603", "vfs5011", "vfs0050", "elan"]

/-- `device_info`. -/
structure DeviceInfo where
  drvId : String
  exist : Bool
deriving DecidableEq, Repr

/-- `device_info_list_init`. The first entry is no driver. -/
def deviceInfoListInit : List DeviceInfo := ("" :: communityDrivers).map fun drvId => ⟨drvId, false⟩

/-- `has_prefix`. -/
def hasPrefix : List Char → List Char → Bool
  | c :: str, d :: pre => if c = d then hasPrefix str pre else false
  | [], _ :: _ => false
  | _, [] => true

/-- The loop of `main` over the devices: all the entries of the driver are marked. -/
def markDevices (devices : List String) (infos : List DeviceInfo) : List DeviceInfo :=
  devices.foldl (fun infos drvId =>
    infos.map fun info => if drvId = info.drvId then { info with exist := true } else info) infos

/-- `is_device_exist`. -/
def isDeviceExist (infos : List DeviceInfo) (deviceName : String) : Bool :=
  match infos.find? fun info => deviceName = info.drvId with
  | some info => info.exist
  | none => false

/-- `PROGAM_NAME`. -/
def progamName : String := "community-multidevice-discover-tool"

/-- `main`, under the name `baseName`: what it prints, and what it returns. -/
def discoverMain (devices : Option (List String)) (baseName : String) (args : List String) :
    String × ℤ :=
  match devices with
  | none => ("Impossible to get devices", -1)
  | some devices =>
    let infos := markDevices devices deviceInfoListInit
    let printed :=
      if baseName ≠ progamName then
        let drvName :=
          if hasPrefix baseName.toList "usb-".toList then String.ofList (baseName.toList.drop 4)
          else baseName
        [drvName].filter (isDeviceExist infos)
      else if args = [] then
        (infos.filter DeviceInfo.exist).map DeviceInfo.drvId
      else
        args.filter (isDeviceExist infos)
    (String.join (printed.map fun drvId => drvId ++ "\n"), printed.length - 1)

/-! ### What it prints -/

theorem hasPrefix_iff {str pre : List Char} : hasPrefix str pre = true ↔ pre <+: str := by
  induction str generalizing pre with
  | nil => cases pre <;> simp [hasPrefix]
  | cons c str ih =>
    cases pre with
    | nil => simp [hasPrefix]
    | cons d pre =>
      rw [hasPrefix, List.cons_prefix_cons]
      split
      next heq => rw [ih, heq, eq_self, true_and]
      next hne => simp [Ne.symm hne]

/-- An entry is marked if libfprint has a device of its driver. -/
theorem markDevices_eq (devices : List String) (infos : List DeviceInfo) :
    markDevices devices infos =
      infos.map fun info => { info with exist := info.exist || decide (info.drvId ∈ devices) } := by
  induction devices generalizing infos with
  | nil => simp [markDevices]
  | cons drvId devices ih =>
    simp only [markDevices, List.foldl_cons] at ih ⊢
    rw [ih, List.map_map]
    refine List.map_congr_left fun info _ => ?_
    by_cases h : drvId = info.drvId
    · simp [h]
    · simp [h, Ne.symm h]

/-- A device is there if libfprint has it and the tool knows its driver. -/
theorem isDeviceExist_iff (devices : List String) (deviceName : String) :
    isDeviceExist (markDevices devices deviceInfoListInit) deviceName = true ↔
      deviceName ∈ "" :: communityDrivers ∧ deviceName ∈ devices := by
  have hinfos : markDevices devices deviceInfoListInit =
      ("" :: communityDrivers).map fun drvId => ⟨drvId, decide (drvId ∈ devices)⟩ := by
    rw [markDevices_eq, deviceInfoListInit, List.map_map]
    rfl
  rw [isDeviceExist, hinfos, List.find?_map]
  cases hfind : ("" :: communityDrivers).find?
      ((fun info : DeviceInfo => decide (deviceName = info.drvId)) ∘
        fun drvId => ⟨drvId, decide (drvId ∈ devices)⟩) with
  | none =>
    refine iff_of_false nofun fun h => ?_
    have hnone := List.find?_eq_none.mp hfind deviceName h.1
    simp at hnone
  | some drvId =>
    obtain rfl : deviceName = drvId := by simpa using List.find?_some hfind
    have hmem := List.mem_of_find?_eq_some hfind
    simp [hmem]

/-- **What a link prints**: its driver, if libfprint has a device of it. -/
theorem discoverMain_link {devices : List String} {driver : String} (args : List String)
    (hdriver : driver ∈ communityDrivers) :
    (discoverMain (some devices) ("usb-" ++ driver) args).1 =
      if driver ∈ devices then driver ++ "\n" else "" := by
  have hname : "usb-" ++ driver ≠ progamName := by
    intro h
    have := congrArg (fun name => name.toList.head?) h
    simp [progamName] at this
  have hprefix : hasPrefix ("usb-" ++ driver).toList "usb-".toList = true := by
    rw [hasPrefix_iff, String.toList_append]
    exact List.prefix_append _ _
  have hdrop : String.ofList (("usb-" ++ driver).toList.drop 4) = driver := by
    rw [String.toList_append]
    exact String.ofList_toList
  have hexist := isDeviceExist_iff devices driver
  rw [and_iff_right (List.mem_cons_of_mem _ hdriver)] at hexist
  simp only [discoverMain, if_pos hname, if_pos hprefix, hdrop, List.filter_cons, List.filter_nil]
  by_cases h : driver ∈ devices
  · rw [if_pos h, if_pos (hexist.mpr h)]
    simp
  · rw [if_neg h, if_neg fun he => h (hexist.mp he)]
    rfl

end BiometricAuth
