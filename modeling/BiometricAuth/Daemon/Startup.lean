import BiometricAuth.Common.DriverList
import BiometricAuth.Common.Hotplug
import BiometricAuth.Config.DiscoverRuns

/-!
# The daemon and its configuration

The daemon reads the configuration when it is started, and not again: which drivers it loads, and
which of them are enabled. Only a driver that is enabled is asked for its devices. While the daemon
runs the tool changes the file, and USB devices come and go.

Main result: `run_heeds`, over any number of starts.
-/

namespace BiometricAuth

/-! ### The start of the daemon -/

/-- What the daemon calls of GLib beyond the tool. -/
structure ConfReader (κ : Type) where
  /-- `g_key_file_get_groups`. -/
  getGroups : κ → List String
  /-- What `g_key_file_get_string` makes of a value; `none` with an error. -/
  unescape : String → Option String
  /-- The values that `g_key_file_get_boolean` takes for `TRUE`. It returns `FALSE` for any other,
  with an error or without. -/
  isTrue : String → Bool

section Start

variable {κ φ : Type} (glib : GKeyFile κ φ) (reader : ConfReader κ)

/-- `bio_conf_init`; `none` with an error. -/
def bioConfInit (file : Option φ) : Option κ :=
  let (bioconf, err) := glib.loadFromFile file
  if err.isSome = true then none else some bioconf

/-- `bio_dev_is_enable`, of a device with a name. -/
def bioDevIsEnable (conf : κ) (deviceName : String) : Bool :=
  (glib.getValue conf deviceName "Enable").any reader.isTrue

/-- The groups, as `bio_driver_list_init` reads them. -/
def confGroups (conf : κ) : List ConfGroup :=
  (reader.getGroups conf).map fun name =>
    ⟨name, (glib.getValue conf name "Driver").bind reader.unescape⟩

/-- The drivers at addresses of their own. -/
def allocated (drvList : List BioDev) : DriverList (Fin drvList.length) where
  dev p := drvList.get p
  drvList := List.finRange drvList.length
  drvList_nodup := List.nodup_finRange _

/-- The lists of a daemon with any number of drivers. -/
abbrev DaemonLists := (n : ℕ) × DeviceLists (Fin n)

/-- `InitBioDevice`, when there is a database and libusb can be used. The libraries that are
installed, and how many devices the drivers find, are given. -/
def initBioDevice (dlopen : String → Option Plugin) (counts : ℕ → ℤ) (file : Option φ) :
    Option DaemonLists := do
  let conf ← bioConfInit glib file
  let drvList ← bioDriverListInit dlopen (bioDevIsEnable glib reader conf)
    (confGroups glib reader conf)
  return ⟨_, DeviceLists.bioDeviceListInit (allocated drvList) fun p => counts p⟩

end Start

/-! ### The daemon and the tool -/

/-- The file, and the daemon when it runs. -/
structure Station (φ : Type) where
  file : Option φ
  daemon : Option DaemonLists

/-- What happens to them. -/
inductive StationAction
  /-- A call of the tool. -/
  | tool (argv : List String) (canSave : Bool)
  | start (dlopen : String → Option Plugin) (counts : ℕ → ℤ)
  | usb (event : UsbEvent)
  /-- The daemon ends, in whatever way. -/
  | stop

section Station

variable {κ φ : Type} (glib : GKeyFile κ φ) (reader : ConfReader κ) (parse : OptionParser)

/-- One step; `none` where it is not enabled. -/
def Station.step (s : Station φ) : StationAction → Option (Station φ)
  | .tool argv canSave => some { s with file := callTool glib parse s.file (argv, canSave) }
  | .start dlopen counts =>
    -- the lock of its PID file keeps a second daemon from running
    if s.daemon.isNone = true then
      some { s with daemon := initBioDevice glib reader dlopen counts s.file }
    else none
  | .usb event => do
    let ⟨n, lists⟩ ← s.daemon
    let lists ← lists.hotplug event
    return { s with daemon := some ⟨n, lists⟩ }
  | .stop => some { s with daemon := none }

/-- A call whose command names the key that enables `driver`. -/
def StationAction.NamesEnable (driver : String) : StationAction → Prop
  | .tool argv _ => ∃ command flags args, invocation parse argv = .ok (command, flags, args) ∧
    Entry.key driver "Enable" ∈ command.names args
  | .start _ _ | .usb _ | .stop => False

/-- A call whose values stand in the file as they are. -/
def StationAction.PlainValues : StationAction → Prop
  | .tool argv _ => ∀ command flags args, invocation parse argv = .ok (command, flags, args) →
    command.PlainValues glib args
  | .start _ _ | .usb _ | .stop => True

end Station

/-! ### The tool on a key -/

section Tool

variable {κ φ : Type} {glib : GKeyFile κ φ} {parse : OptionParser}

/-- A command creates no key but those it names. -/
theorem ConfigCommand.key_notMem_creates (command : ConfigCommand) (args : List String)
    (g k : String) : Entry.key g k ∉ command.creates args := by
  unfold ConfigCommand.creates
  split <;> simp

/-- A key that is not named stays as it is. -/
theorem callTool_frame (h : Reliable glib parse) {file : Option φ} (hloads : Loads glib file)
    {argv : List String} (canSave : Bool) {g k : String}
    (hvalues : ∀ command flags args, invocation parse argv = .ok (command, flags, args) →
      command.PlainValues glib args)
    (hnames : ∀ command flags args, invocation parse argv = .ok (command, flags, args) →
      Entry.key g k ∉ command.names args) :
    Loads glib (callTool glib parse file (argv, canSave)) ∧
      glib.fileContents (callTool glib parse file (argv, canSave)) (.key g k) =
        glib.fileContents file (.key g k) := by
  -- a call that saves, or one that leaves the file as it was
  rcases configTool_file_cases glib parse argv canSave file with
    ⟨command, flags, args, saved, hinvocation, hfn, -, hfile⟩ | ⟨-, hfile⟩
  · -- the file that is saved can be loaded again
    have hplain : glib.Plain saved := ConfigCommand.plain_saved h (plain_configInit h file)
      (hvalues command flags args hinvocation) hfn
    obtain ⟨hloads', hcontents⟩ := loads_toData h hplain
    -- the key is neither one the call names nor one it makes
    have hother : Entry.key g k ∈ (command.names args ∪ command.creates args)ᶜ := by
      rintro (hmem | hmem)
      · exact hnames command flags args hinvocation hmem
      · exact command.key_notMem_creates args g k hmem
    rw [callTool, hfile, hcontents, (ConfigCommand.fn_spec h.lawful hfn).frame hother, hloads]
    exact ⟨hloads', rfl⟩
  · rw [callTool, hfile]
    exact ⟨hloads, rfl⟩

end Tool

/-! ### The driver list -/

section Load

variable {dlopen : String → Option Plugin} {isEnable : String → Bool}

/-- Every driver of the list is enabled as the configuration says under its name. -/
theorem enable_of_mem_driverListLoop {groups : List ConfGroup} {drvList drvList' : List BioDev}
    (hlist : ∀ dev ∈ drvList, dev.enable = isEnable dev.deviceName)
    (h : driverListLoop dlopen isEnable groups drvList = some drvList') :
    ∀ dev ∈ drvList', dev.enable = isEnable dev.deviceName := by
  induction groups generalizing drvList with
  | nil =>
    -- nothing has been added
    obtain rfl := Option.some.inj h
    exact hlist
  | cons group groups ih =>
    -- a group without a name is passed over
    by_cases hname : group.name = ""
    · rw [driverListLoop, if_pos hname] at h
      exact ih hlist h
    -- the loop gives the list up at a group without a driver
    by_cases hdriver : group.driver.getD "" = ""
    · rw [driverListLoop_of_no_driver hname hdriver] at h
      obtain rfl := Option.some.inj h
      exact List.forall_mem_nil _
    cases hp : dlopen (group.driver.getD "") with
    | none =>
      -- a library that does not load adds nothing
      rw [driverListLoop_of_no_plugin hname hdriver hp] at h
      exact ih hlist h
    | some p =>
      -- the device is enabled as the configuration says when it is added
      rw [driverListLoop_plugin hname hdriver hp] at h
      obtain ⟨id, -, h⟩ := Option.bind_eq_some_iff.mp h
      refine ih ?_ h
      split
      · rw [List.forall_mem_append]
        refine ⟨hlist, fun dev hdev => ?_⟩
        obtain rfl := List.mem_singleton.mp hdev
        rfl
      · exact hlist

end Load

/-! ### The device list -/

namespace DeviceLists

variable {ι : Type*} [DecidableEq ι]

/-- The daemon heeds that the drivers with the name `driver` are enabled, or that they are not. -/
structure Heeds (driver : String) (enabled : Bool) (s : DeviceLists ι) : Prop where
  enable : ∀ p ∈ s.drvList, (s.dev p).deviceName = driver → (s.dev p).enable = enabled
  /-- Exactly the drivers that are enabled have been asked for their devices. -/
  discovered : ∀ p ∈ s.drvList, (s.discovered p).isSome = (s.dev p).enable
  listed : ∀ p ∈ s.devList, (s.dev p).enable = true

@[simp] theorem discover_deviceName (s : DeviceLists ι) (p q : ι) (count : ℤ) :
    ((s.discover p count).dev q).deviceName = (s.dev q).deviceName := by
  by_cases hq : q = p
  · subst hq
    simp [discover]
  · simp [discover, hq]

/-- A driver that is enabled may be asked, and listed then or taken off the list. -/
theorem Heeds.discover {driver : String} {enabled : Bool} {s : DeviceLists ι}
    (hs : s.Heeds driver enabled) {p : ι} (hp : (s.dev p).enable = true) (count : ℤ)
    {devs : List ι} (hdevs : ∀ q ∈ devs, q = p ∨ q ∈ s.devList) :
    Heeds driver enabled { s.discover p count with devList := devs } where
  enable q hq hname := by
    have hname : ((s.discover p count).dev q).deviceName = driver := hname
    rw [discover_deviceName] at hname
    exact (discover_enable s p q count).trans (hs.enable q hq hname)
  discovered q hq := by
    refine Eq.trans ?_ (discover_enable s p q count).symm
    by_cases hqp : q = p
    · subst hqp
      simp [DeviceLists.discover, hp]
    · simpa [DeviceLists.discover, hqp] using hs.discovered q hq
  listed q hq := by
    refine (discover_enable s p q count).trans ?_
    rcases hdevs q hq with rfl | hq
    · exact hp
    · exact hs.listed q hq

/-- One call of a hotplug callback. -/
theorem Heeds.attach {driver : String} {enabled : Bool} {s : DeviceLists ι}
    (hs : s.Heeds driver enabled) (idVendor idProduct : ℕ) (count : ℤ) :
    (s.bioUsbHotplugCallbackAttach idVendor idProduct count).Heeds driver enabled := by
  unfold bioUsbHotplugCallbackAttach
  split
  next => exact hs
  next p hdriver =>
    have hp := (usbDriver_eq_some hdriver).2
    simp only [discover_devNum, discover_devList]
    split
    · refine hs.discover hp count fun q hq => ?_
      simpa [or_comm] using hq
    · exact hs.discover hp count fun q hq => .inr hq

theorem Heeds.detach {driver : String} {enabled : Bool} {s : DeviceLists ι}
    (hs : s.Heeds driver enabled) (idVendor idProduct : ℕ) (count : ℤ) :
    (s.bioUsbHotplugCallbackDetach idVendor idProduct count).Heeds driver enabled := by
  unfold bioUsbHotplugCallbackDetach
  split
  next => exact hs
  next p hdriver =>
    have hp := (usbDriver_eq_some hdriver).2
    simp only [discover_devNum, discover_devList]
    split
    · exact hs.discover hp count fun q hq => .inr (List.mem_of_mem_erase hq)
    · exact hs.discover hp count fun q hq => .inr hq

/-- Whatever is plugged in or out, however often the callbacks are called for it. -/
theorem Heeds.hotplug {driver : String} {enabled : Bool} {s s' : DeviceLists ι}
    (hs : s.Heeds driver enabled) {event : UsbEvent} (h : s.hotplug event = some s') :
    s'.Heeds driver enabled := by
  cases event with
  | attach idVendor idProduct counts =>
    obtain rfl := Option.some.inj h
    exact List.foldlRecOn _ _ hs fun s hs k _ => hs.attach idVendor idProduct (counts k)
  | detach idVendor idProduct counts =>
    obtain rfl := Option.some.inj h
    exact List.foldlRecOn _ _ hs fun s hs k _ => hs.detach idVendor idProduct (counts k)

/-- The drivers of the list, when those in `ps` have had their turn. -/
theorem foldl_initDriver (drivers : DriverList ι) (counts : ι → ℤ) (ps : List ι) :
    let s := ps.foldl (initDriver counts)
      { drivers with devList := [], discovered := fun _ => none }
    s.drvList = drivers.drvList ∧
      (∀ q, (s.dev q).deviceName = (drivers.dev q).deviceName ∧
        (s.dev q).enable = (drivers.dev q).enable) ∧
      (∀ q, s.discovered q =
        if q ∈ ps ∧ (drivers.dev q).enable = true then some (counts q) else none) ∧
      ∀ q ∈ s.devList, (s.dev q).enable = true := by
  induction ps using List.reverseRecOn with
  | nil => simp
  | append_singleton ps p ih =>
    obtain ⟨hdrv, hdev, hdiscovered, hlisted⟩ := ih
    rw [List.foldl_append, List.foldl_cons, List.foldl_nil]
    set s := ps.foldl (initDriver counts)
      { drivers with devList := [], discovered := fun _ => none } with hs
    unfold initDriver
    split
    next henable =>
      -- the driver that has its turn is the one that is asked
      have hasked : ∀ q, (s.discover p (counts p)).discovered q =
          if q ∈ ps ++ [p] ∧ (drivers.dev q).enable = true then some (counts q) else none := by
        intro q
        by_cases hq : q = p
        · subst hq
          simp [discover, ← (hdev q).2, henable]
        · simpa [discover, hq] using hdiscovered q
      -- its name and its key are not touched
      have hsame : ∀ q, ((s.discover p (counts p)).dev q).deviceName =
            (drivers.dev q).deviceName ∧
          ((s.discover p (counts p)).dev q).enable = (drivers.dev q).enable := by
        intro q
        rw [discover_deviceName, discover_enable]
        exact hdev q
      simp only [discover_devNum, discover_devList]
      -- it is listed if it has found a device, and then it is enabled
      split
      · refine ⟨hdrv, hsame, hasked, fun q hq => ?_⟩
        refine (discover_enable s p q (counts p)).trans ?_
        rcases List.mem_append.mp hq with hq | hq
        · exact hlisted q hq
        · exact List.mem_singleton.mp hq ▸ henable
      · exact ⟨hdrv, hsame, hasked, fun q hq =>
          (discover_enable s p q (counts p)).trans (hlisted q hq)⟩
    next henable =>
      refine ⟨hdrv, hdev, fun q => ?_, hlisted⟩
      rw [hdiscovered q]
      by_cases hq : q = p
      · -- a driver that is not enabled is passed over
        subst hq
        rw [(hdev q).2] at henable
        simp [henable]
      · simp [hq]

/-- What the drivers have found at the start. -/
theorem discovered_bioDeviceListInit (drivers : DriverList ι) (counts : ι → ℤ) {p : ι}
    (hp : p ∈ drivers.drvList) : (bioDeviceListInit drivers counts).discovered p =
      if (drivers.dev p).enable = true then some (counts p) else none := by
  refine ((foldl_initDriver drivers counts drivers.drvList).2.2.1 p).trans ?_
  simp only [hp, true_and]

/-- After `bio_device_list_init`. -/
theorem heeds_bioDeviceListInit {driver : String} {enabled : Bool} {drivers : DriverList ι}
    (h : ∀ p ∈ drivers.drvList, (drivers.dev p).deviceName = driver →
      (drivers.dev p).enable = enabled) (counts : ι → ℤ) :
    (bioDeviceListInit drivers counts).Heeds driver enabled := by
  obtain ⟨hdrv, hdev, -, hlisted⟩ := foldl_initDriver drivers counts drivers.drvList
  refine ⟨fun p hp hname => ?_, fun p hp => ?_, hlisted⟩
  · exact (hdev p).2.trans (h p (hdrv ▸ hp) ((hdev p).1.symm.trans hname))
  · have hasked := discovered_bioDeviceListInit drivers counts (hdrv ▸ hp)
    refine Eq.trans ?_ (hdev p).2.symm
    rw [hasked]
    cases (drivers.dev p).enable <;> rfl

end DeviceLists

/-! ### Runs -/

section Run

variable {κ φ : Type} {glib : GKeyFile κ φ} {reader : ConfReader κ} {parse : OptionParser}

/-- The file that was loaded says which drivers are enabled. -/
theorem bioDevIsEnable_of_loads {file : Option φ} {conf : κ} (hloads : Loads glib file)
    (hconf : bioConfInit glib file = some conf) (deviceName : String) :
    bioDevIsEnable glib reader conf deviceName =
      (glib.fileContents file (.key deviceName "Enable")).any reader.isTrue := by
  obtain ⟨-, hconf⟩ := Option.ite_none_left_eq_some.mp hconf
  obtain rfl := Option.some.inj hconf
  have hentry := congrFun hloads (.key deviceName "Enable")
  rw [configInit] at hentry
  rw [bioDevIsEnable, ← hentry]
  split <;> simp_all [GKeyFile.entry]

/-- A daemon that is started heeds what the file says of a driver. -/
theorem heeds_initBioDevice {file : Option φ} (hloads : Loads glib file)
    {dlopen : String → Option Plugin} {counts : ℕ → ℤ} {daemon : DaemonLists}
    (h : initBioDevice glib reader dlopen counts file = some daemon) (driver : String) :
    daemon.2.Heeds driver
      ((glib.fileContents file (.key driver "Enable")).any reader.isTrue) := by
  obtain ⟨conf, hconf, h⟩ := Option.bind_eq_some_iff.mp h
  obtain ⟨drvList, hlist, h⟩ := Option.bind_eq_some_iff.mp h
  obtain rfl := Option.some.inj h
  refine DeviceLists.heeds_bioDeviceListInit (fun p _ hname => ?_) _
  rw [← bioDevIsEnable_of_loads hloads hconf, ← hname]
  exact enable_of_mem_driverListLoop (List.forall_mem_nil _) hlist _ (List.get_mem drvList p)

/-- The file says `value` of whether `driver` is enabled, and the daemon heeds it. -/
structure StationInv (glib : GKeyFile κ φ) (reader : ConfReader κ) (driver : String)
    (value : Option String) (s : Station φ) : Prop where
  loads : Loads glib s.file
  value_eq : glib.fileContents s.file (.key driver "Enable") = value
  heeds : ∀ daemon, s.daemon = some daemon → daemon.2.Heeds driver (value.any reader.isTrue)

/-- One step. -/
theorem StationInv.step (h : Reliable glib parse) {driver : String} {value : Option String}
    {s s' : Station φ} {action : StationAction} (hs : StationInv glib reader driver value s)
    (hvalues : action.PlainValues glib parse) (hnames : ¬ action.NamesEnable parse driver)
    (hstep : s.step glib reader parse action = some s') :
    StationInv glib reader driver value s' := by
  cases action with
  | tool argv canSave =>
    -- the file changes, but not at the key
    obtain rfl := Option.some.inj hstep
    obtain ⟨hloads, hvalue⟩ := callTool_frame h hs.loads canSave hvalues
      fun command flags args hinvocation hmem =>
        hnames ⟨command, flags, args, hinvocation, hmem⟩
    exact ⟨hloads, hvalue.trans hs.value_eq, hs.heeds⟩
  | start dlopen counts =>
    -- the new daemon reads the file as it is now
    obtain ⟨-, hstep⟩ := Option.ite_none_right_eq_some.mp hstep
    obtain rfl := Option.some.inj hstep
    refine ⟨hs.loads, hs.value_eq, fun daemon hdaemon => ?_⟩
    rw [← hs.value_eq]
    exact heeds_initBioDevice hs.loads hdaemon driver
  | usb event =>
    -- no event changes what a driver was told at the start
    obtain ⟨⟨n, lists⟩, hdaemon, hstep⟩ := Option.bind_eq_some_iff.mp hstep
    obtain ⟨lists', hlists, hstep⟩ := Option.bind_eq_some_iff.mp hstep
    obtain rfl := Option.some.inj hstep
    refine ⟨hs.loads, hs.value_eq, fun daemon hdaemon' => ?_⟩
    obtain rfl := Option.some.inj hdaemon'
    exact (hs.heeds _ hdaemon).hotplug hlists
  | stop =>
    -- there is no daemon any more
    obtain rfl := Option.some.inj hstep
    refine ⟨hs.loads, hs.value_eq, fun daemon hdaemon => ?_⟩
    cases hdaemon

/-- **A driver that is not named.** As long as no call of the tool names the key that enables
`driver` or has a value that needs escapes, every daemon that is started heeds what the file said of
it in the beginning: a driver of that name is asked for its devices if it was enabled, and otherwise
neither asked nor listed, whatever is plugged in. -/
theorem run_heeds (h : Reliable glib parse) {file : Option φ} (hloads : Loads glib file)
    {driver : String} {actions : List StationAction}
    (hvalues : ∀ action ∈ actions, action.PlainValues glib parse)
    (hnames : ∀ action ∈ actions, ¬ action.NamesEnable parse driver) {s : Station φ}
    (hrun : Machine.run (Station.step glib reader parse) ⟨file, none⟩ actions = some s)
    {daemon : DaemonLists} (hdaemon : s.daemon = some daemon) :
    let enabled := (glib.fileContents file (.key driver "Enable")).any reader.isTrue
    ∀ p ∈ daemon.2.drvList, (daemon.2.dev p).deviceName = driver →
      (daemon.2.dev p).enable = enabled ∧ (daemon.2.discovered p).isSome = enabled ∧
        (p ∈ daemon.2.devList → enabled = true) := by
  -- in the beginning there is no daemon
  have hinit : StationInv glib reader driver (glib.fileContents file (.key driver "Enable"))
      ⟨file, none⟩ := by
    refine ⟨hloads, rfl, fun daemon hdaemon => ?_⟩
    cases hdaemon
  -- each action meets the two conditions
  have halong : Machine.Along (Station.step glib reader parse)
      (fun _ action => action.PlainValues glib parse ∧ ¬ action.NamesEnable parse driver)
      ⟨file, none⟩ actions :=
    Machine.along_of_invariant (I := fun _ => True) (fun _ _ _ ha => ha)
      (fun _ _ _ _ _ _ => trivial) trivial fun action ha => ⟨hvalues action ha, hnames action ha⟩
  have hheeds := (halong.run_invariant (fun _ _ _ hs ha hstep => hs.step h ha.1 ha.2 hstep) hinit
    hrun).heeds daemon hdaemon
  intro enabled p hp hname
  have henable := hheeds.enable p hp hname
  exact ⟨henable, (hheeds.discovered p hp).trans henable,
    fun hlisted => henable.symm.trans (hheeds.listed p hlisted)⟩

/-- The configuration as it is read where these two groups may be. -/
def entryReader : ConfReader EntryFile where
  getGroups file := ["uru4000", "aes2501"].filter fun name => (file.entry (.group name)).isSome
  unescape value := if '\\' ∈ value.toList then none else some value
  isTrue value := value = "true" ∨ value = "1"

/-- One driver, disabled. -/
def disabledText : EntryText := entryGLib.toData
  ((EntryFile.empty.insert "uru4000" "Driver" (driverPath "uru4000")).insert
    "uru4000" "Enable" "false")

/-- The library of that driver only. -/
def installedLibrary (path : String) : Option Plugin :=
  if path = driverPath "uru4000" then
    some { uru4000Plugin with dev := DeviceLists.oneDriver.dev () }
  else
    none

/-- Another driver is added, the daemon is started once more, and a reader is plugged in. -/
def restartedActions : List StationAction :=
  [.start installedLibrary fun _ => 1, .usb (.attach 0x05ba 0x000a fun _ => 1),
    .tool ["add-driver", "aes2501", "aes2501.so"] true, .stop,
    .start installedLibrary fun _ => 1, .usb (.attach 0x05ba 0x000a fun _ => 1)]

/-- The driver is loaded, but its reader is not listed. -/
theorem run_heeds_disabled : ∃ s daemon,
    Machine.run (Station.step entryGLib entryReader shortOptions) ⟨some disabledText, none⟩
        restartedActions = some s ∧
      s.daemon = some daemon ∧ (∃ p ∈ daemon.2.drvList, (daemon.2.dev p).deviceName = "uru4000") ∧
        ∀ p ∈ daemon.2.drvList, (daemon.2.dev p).deviceName = "uru4000" →
          p ∉ daemon.2.devList := by
  have hdaemon : ((Machine.run (Station.step entryGLib entryReader shortOptions)
      ⟨some disabledText, none⟩ restartedActions).bind Station.daemon).any (fun daemon =>
        daemon.2.drvList.any fun p => (daemon.2.dev p).deviceName = "uru4000") = true := by
    decide +kernel
  obtain ⟨daemon, hdaemon, hloaded⟩ := (Option.any_eq_true _ _).mp hdaemon
  obtain ⟨s, hrun, hdaemon⟩ := Option.bind_eq_some_iff.mp hdaemon
  -- no tool of the run names the key
  have hnames : ∀ action ∈ restartedActions, ¬ action.NamesEnable shortOptions "uru4000" := by
    intro action haction
    have hcall : invocation shortOptions ["add-driver", "aes2501", "aes2501.so"] =
        .ok (.addDriver, [], ["aes2501", "aes2501.so"]) := rfl
    cases action with
    | tool argv canSave =>
      obtain ⟨rfl, rfl⟩ : argv = ["add-driver", "aes2501", "aes2501.so"] ∧ canSave = true := by
        simpa [restartedActions] using haction
      rintro ⟨command, flags, args, hinvocation, hmem⟩
      obtain ⟨rfl, rfl, rfl⟩ : ConfigCommand.addDriver = command ∧ [] = flags ∧
          ["aes2501", "aes2501.so"] = args := by simpa using hcall.symm.trans hinvocation
      simp [ConfigCommand.names] at hmem
    | start | usb | stop => exact not_false
  -- and every value is stored as it is given
  have hvalues : ∀ action ∈ restartedActions, action.PlainValues entryGLib shortOptions := by
    intro action _
    cases action with
    | tool argv canSave =>
      intro command flags args _
      unfold ConfigCommand.PlainValues
      split
      exacts [rfl, rfl, trivial]
    | start | usb | stop => trivial
  -- in the file the key is off
  have hoff : (entryGLib.fileContents (some disabledText) (.key "uru4000" "Enable")).any
      entryReader.isTrue = false := by decide +kernel
  refine ⟨s, daemon, hrun, hdaemon, ?_, fun p hp hname hlisted => ?_⟩
  · simpa using hloaded
  · have hloads : Loads entryGLib (some disabledText) :=
      (loads_toData reliable_entryGLib fun _ _ _ _ => rfl).1
    have hon := (run_heeds reliable_entryGLib hloads hvalues hnames hrun hdaemon p hp hname).2.2
      hlisted
    exact Bool.false_ne_true (hoff.symm.trans hon)

end Run

end BiometricAuth
