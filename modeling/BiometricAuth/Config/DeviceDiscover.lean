import BiometricAuth.Config.DiscoverTool
import BiometricAuth.Config.Tool
import BiometricAuth.Lib.Overwrite
import Mathlib.Data.List.DropRight

/-!
# Discovery into the configuration

`biometric-device-discover -w` runs a discover tool for every driver that has one, and has
`biometric-config-tool` write down what was found: a driver with a device is added, disabled at
first, and then enabled; a serial driver without one is removed. So the configuration is changed in
many small steps, each of them a load and a save of the whole file.

A step puts fixed values at some entries (`ConfigChange.write`), whatever they were before, or
leaves the file alone: `callTool_cases`, for a file that can be loaded.
-/

namespace BiometricAuth

open Overwrite

/-! ### The script -/

/-- A device type of the script. -/
inductive DeviceType
  | serial | usb | pcie
deriving DecidableEq, Repr

/-- The name of a device type. -/
def DeviceType.name : DeviceType → String
  | serial => "serial"
  | usb => "usb"
  | pcie => "pcie"

/-- `device_type_list`, of the type that was asked for or of `all`. -/
def deviceTypeList : Option DeviceType → List DeviceType
  | some deviceType => [deviceType]
  | none => [.serial, .usb, .pcie]

/-- The text that the shell puts in for a command: what it prints, without the newlines at the
end. -/
def commandSubstitution (output : String) : String :=
  String.ofList (output.toList.rdropWhile fun c => c = '\n')

/-- The words that the shell makes of a text, in which no file names are put in for a `*`. -/
def shellWords (text : String) : List String :=
  ((text.toList.splitOnP fun c => c = ' ' ∨ c = '\t' ∨ c = '\n').filter (· ≠ [])).map String.ofList

/-- `drv_list`: of the tools whose names have the type and a dash in them, the names without the
type and the dash in front. An empty one is no word. -/
def drvList (deviceType : DeviceType) (discoverList : List String) : List String :=
  let pre := (deviceType.name ++ "-").toList
  ((discoverList.filter fun bioDrv => pre <:+: bioDrv.toList).map fun bioDrv =>
    if pre <+: bioDrv.toList then String.ofList (bioDrv.toList.drop pre.length) else bioDrv).filter
      (· ≠ "")

/-- `${driver}.so` in the directory of the drivers. -/
def driverPath (driver : String) : String :=
  "/usr/lib/biometric-authentication/drivers/" ++ driver ++ ".so"

/-- The calls of `biometric-config-tool` for one driver. It is the text of `dev_node_list` that is
tested, and its words are the device nodes; so a driver whose tool prints blanks is added, and not
enabled. -/
def configCalls (deviceType : DeviceType) (driver devNodeList : String) : List (List String) :=
  if devNodeList ≠ "" then
    ["add-driver", "-f", "-d", driver, driverPath driver] ::
      (shellWords devNodeList).flatMap fun devNode =>
        (if deviceType = .serial then [["set-key", "-f", driver, "Path", devNode]] else []) ++
          [["enable-driver", driver]]
  else if deviceType = .serial then
    [["remove-driver", "-i", driver]]
  else
    []

section Script

/- `runTool` gives what the tool of a device type and a driver prints. -/
variable (runTool : DeviceType → String → String) (discoverList : List String)

/-- The calls of `biometric-device-discover -w`. -/
def biometricDeviceDiscover (deviceTypes : List DeviceType) : List (List String) :=
  deviceTypes.flatMap fun deviceType =>
    (drvList deviceType discoverList).flatMap fun driver =>
      configCalls deviceType driver (commandSubstitution (runTool deviceType driver))

end Script

section Calls

variable {κ φ : Type} (glib : GKeyFile κ φ) (parse : OptionParser)

/-- The file after a call of the tool that can save or not. -/
def callTool (file : Option φ) (call : List String × Bool) : Option φ :=
  (configTool glib call.1 parse call.2 file).file

/-- The file after some calls. -/
def callTools (calls : List (List String × Bool)) (file : Option φ) : Option φ :=
  calls.foldl (callTool glib parse) file

/-- The file after a run of the script that can always save. -/
def discoverInto (calls : List (List String)) (file : Option φ) : Option φ :=
  callTools glib parse (calls.map fun call => (call, true)) file

end Calls

/-! ### Changes of the configuration -/

/-- What a call of the script is for. -/
inductive ConfigChange
  | add (driver : String)
  | setPath (driver devNode : String)
  | enable (driver : String)
  | remove (driver : String)

namespace ConfigChange

/-- The call. -/
def call : ConfigChange → List String
  | add driver => ["add-driver", "-f", "-d", driver, driverPath driver]
  | setPath driver devNode => ["set-key", "-f", driver, "Path", devNode]
  | enable driver => ["enable-driver", driver]
  | remove driver => ["remove-driver", "-i", driver]

/-- One key of a driver. -/
def keyWrite (driver key value : String) : Write Entry (Option String)
  | .key g k => if g = driver ∧ k = key then some (some value) else none
  | .group _ => none

/-- What it puts where. -/
def write : ConfigChange → Write Entry (Option String)
  | add driver => fun e =>
    if e = .group driver then some (some "")
    else ((keyWrite driver "Driver" (driverPath driver)).after (keyWrite driver "Enable" "false")) e
  | setPath driver devNode => keyWrite driver "Path" devNode
  | enable driver => keyWrite driver "Enable" "true"
  | remove driver => fun e =>
    match e with
    | .group g | .key g _ => if g = driver then some none else none

/-- The driver has to be there to be given a path or to be enabled. -/
def Ready (c : Contents) : ConfigChange → Prop
  | add _ | remove _ => True
  | setPath driver _ | enable driver => c (.group driver) ≠ none

/-- The arguments are none that could be taken for options, the name can be that of a group, and the
value stands in the file as it is. -/
def Proper {κ φ : Type} (glib : GKeyFile κ φ) : ConfigChange → Prop
  | add driver =>
    glib.isGroupName driver = true ∧ driver.toList.head? ≠ some '-' ∧
      glib.isPlain "Driver" (driverPath driver) = true
  | setPath driver devNode =>
    glib.isGroupName driver = true ∧ driver.toList.head? ≠ some '-' ∧
      devNode.toList.head? ≠ some '-' ∧ glib.isPlain "Path" devNode = true
  | enable driver | remove driver =>
    glib.isGroupName driver = true ∧ driver.toList.head? ≠ some '-'

end ConfigChange

/-- What the script relies on: GLib does what it is documented to do, a text that it has written can
be loaded if nothing in it needs escapes, and options of one letter are taken out of the
arguments. -/
structure Reliable {κ φ : Type} (glib : GKeyFile κ φ) (parse : OptionParser) : Prop where
  lawful : glib.Lawful
  isKeyName_path : glib.isKeyName "Path" = true
  /-- A key that was set has its value then, or is as it was. -/
  getValue_setValue_self : ∀ keyFile g k value value',
    glib.getValue (glib.setValue keyFile g k value) g k = some value' →
      value' = value ∨ glib.getValue keyFile g k = some value'
  getValue_removeKey_self : ∀ keyFile g k, glib.getValue (glib.removeKey keyFile g k) g k = none
  isPlain_enable : ∀ enable : Bool,
    glib.isPlain "Enable" (if enable then "true" else "false") = true
  plain_loadFromFile : ∀ file, glib.Plain (glib.loadFromFile file).1
  contents_toData : ∀ keyFile, glib.Plain keyFile →
    glib.contents (glib.toData keyFile) = glib.entry keyFile
  load_toData : ∀ keyFile, glib.Plain keyFile →
    glib.entry (glib.loadFromFile (some (glib.toData keyFile))).1 = glib.entry keyFile
  parse_short : ∀ (entries options : List OptionEntry) (args : List String), options ⊆ entries →
    (entries.map OptionEntry.shortName).Nodup → (∀ arg ∈ args, arg.toList.head? ≠ some '-') →
    parse entries (options.map (fun option => String.ofList ['-', option.shortName]) ++ args) =
      .ok (options.map OptionEntry.flag, args)

section Changes

variable {κ φ : Type} {glib : GKeyFile κ φ} {parse : OptionParser} {keyFile : κ}

/-- Setting a value in full. -/
theorem entry_setValue_eq (hglib : glib.Lawful) {driver key : String} (value : String)
    (hname : glib.isGroupName driver = true) (hkey : glib.isKeyName key = true) :
    glib.entry (glib.setValue keyFile driver key value) =
      fun e => if e = .group driver then some "" else
        (ConfigChange.keyWrite driver key value).apply (glib.entry keyFile) e := by
  obtain ⟨hgroup, hvalue⟩ := hglib.setValue_self keyFile driver key value hname hkey
  funext e
  by_cases hedriver : e = .group driver
  · rw [if_pos hedriver, hedriver, GKeyFile.entry, hgroup, if_pos rfl]
  · rw [if_neg hedriver]
    by_cases hekey : e = .key driver key
    · subst hekey
      rw [apply_of_some (a := some value) (by simp [ConfigChange.keyWrite])]
      exact hvalue
    · rw [apply_of_none]
      · exact hglib.entry_setValue keyFile driver key value (by simp [hedriver, hekey])
      · cases e with
        | group g => rfl
        | key g k =>
          refine if_neg fun h => hekey ?_
          rw [h.1, h.2]

/-- In a group that is there. -/
theorem entry_setValue_ready (hglib : glib.Lawful) {driver key : String} (value : String)
    (hkey : glib.isKeyName key = true) (hgroup : glib.hasGroup keyFile driver = true) :
    glib.entry (glib.setValue keyFile driver key value) =
      (ConfigChange.keyWrite driver key value).apply (glib.entry keyFile) := by
  rw [entry_setValue_eq hglib value (hglib.isGroupName_of_hasGroup _ _ hgroup) hkey]
  funext e
  split
  next h =>
    subst h
    rw [apply_of_none rfl, GKeyFile.entry, hgroup, if_pos rfl]
  next => rfl

/-- A group is there if it is an entry. -/
theorem hasGroup_iff {driver : String} :
    glib.hasGroup keyFile driver = true ↔ glib.entry keyFile (.group driver) ≠ none := by
  rw [GKeyFile.entry]
  split
  next h => exact iff_of_true h (Option.some_ne_none _)
  next h => exact iff_of_false h fun h => h rfl

/-- A call as the tool understands it. -/
def ConfigChange.parsed : ConfigChange → ConfigCommand × List Flag × List String
  | add driver => (.addDriver, [.forceOverride, .driverDisable], [driver, driverPath driver])
  | setPath driver devNode => (.setKey, [.forceOverride], [driver, "Path", devNode])
  | enable driver => (.enableDriver, [], [driver])
  | remove driver => (.removeDriver, [.driverIgnore], [driver])

theorem invocation_cons (command : ConfigCommand) (argv : List String) :
    invocation parse (command.name :: argv) = (parse command.entries argv).map fun parsed =>
      (command, parsed.1, parsed.2) := by
  have hextract : extractCommand (command.name :: argv) = (some command.name, argv) := by
    cases command <;> rfl
  have hfind : commands.find? (fun command' => some command.name = some command'.name) =
      some command := by
    cases command <;> rfl
  rw [invocation, hextract]
  simp only [hfind]
  cases parse command.entries argv <;> rfl

theorem head?_driverPath (driver : String) : (driverPath driver).toList.head? = some '/' := by
  have hdir : "/usr/lib/biometric-authentication/drivers/".toList.head? = some '/' := by
    decide +kernel
  unfold driverPath
  rw [String.toList_append, String.toList_append, List.head?_append, List.head?_append, hdir]
  rfl

theorem invocation_call (h : Reliable glib parse) {change : ConfigChange}
    (hproper : change.Proper glib) :
    invocation parse change.call = .ok change.parsed := by
  -- the options of each call are short ones of its command, and no argument looks like an option
  have hshort : ∀ (command : ConfigCommand) (options : List OptionEntry) (args : List String),
      options ⊆ command.entries → (∀ arg ∈ args, arg.toList.head? ≠ some '-') →
      invocation parse (command.name ::
        (options.map (fun option => String.ofList ['-', option.shortName]) ++ args)) =
        .ok (command, options.map OptionEntry.flag, args) := by
    intro command options args hsub hargs
    -- no two options of a command have the same letter
    have hnodup : (command.entries.map OptionEntry.shortName).Nodup := by
      cases command <;> decide
    rw [invocation_cons, h.parse_short _ _ _ hsub hnodup hargs]
    rfl
  cases change with
  | add driver =>
    refine hshort .addDriver ConfigCommand.addDriver.entries _ (List.Subset.refl _) ?_
    simpa [head?_driverPath] using hproper.2.1
  | setPath driver devNode =>
    refine hshort .setKey [⟨"force", 'f', .forceOverride⟩] _ (by simp [ConfigCommand.entries]) ?_
    simpa using And.intro hproper.2.1 hproper.2.2.1
  | enable driver =>
    refine hshort .enableDriver [] _ (List.nil_subset _) ?_
    simpa using hproper.2
  | remove driver =>
    refine hshort .removeDriver ConfigCommand.removeDriver.entries _ (List.Subset.refl _) ?_
    simpa using hproper.2

theorem biometricConfigRun_call (h : Reliable glib parse) {change : ConfigChange}
    (hproper : change.Proper glib) :
    biometricConfigRun glib change.call keyFile parse =
      change.parsed.1.fn glib change.parsed.2.1 change.parsed.2.2 keyFile := by
  rw [biometricConfigRun, invocation_call h hproper]
  rfl

/-- A driver that is added. -/
theorem entry_add (hglib : glib.Lawful) {driver : String} (hname : glib.isGroupName driver = true) :
    glib.entry (glib.setValue (glib.setBoolean keyFile driver "Enable" false) driver "Driver"
      (driverPath driver)) = (ConfigChange.add driver).write.apply (glib.entry keyFile) := by
  rw [entry_setValue_eq hglib _ hname hglib.isKeyName_driver, GKeyFile.setBoolean,
    entry_setValue_eq hglib _ hname hglib.isKeyName_enable]
  funext e
  simp only [ConfigChange.write, Write.apply]
  by_cases he : e = .group driver
  · rw [if_pos he, if_pos he, Option.getD_some]
  · rw [if_neg he, if_neg he, if_neg he, Write.after]
    cases ConfigChange.keyWrite driver "Driver" (driverPath driver) e <;> rfl

/-- A driver that is removed. -/
theorem entry_remove (hglib : glib.Lawful) (driver : String) :
    glib.entry (glib.removeGroup keyFile driver) =
      (ConfigChange.remove driver).write.apply (glib.entry keyFile) := by
  funext e
  cases e with
  | group g =>
    rw [GKeyFile.entry, hglib.hasGroup_removeGroup, Write.apply, ConfigChange.write]
    by_cases hg : g = driver
    · simp [hg]
    · simp [hg, GKeyFile.entry]
  | key g k =>
    rw [GKeyFile.entry, hglib.getValue_removeGroup, Write.apply, ConfigChange.write]
    by_cases hg : g = driver
    · simp [hg]
    · simp [hg, GKeyFile.entry]

/-- A call that finds what it needs saves what its change makes of the key file. -/
theorem exists_saved (h : Reliable glib parse) {change : ConfigChange}
    (hproper : change.Proper glib) (hready : change.Ready (glib.entry keyFile)) :
    ∃ saved, biometricConfigRun glib change.call keyFile parse = .ok (some saved) ∧
      glib.entry saved = change.write.apply (glib.entry keyFile) := by
  rw [biometricConfigRun_call h hproper]
  cases change with
  | add driver =>
    -- the group need not be there, as the call forces it
    refine ⟨_, biometricConfigAddDriver_eq_some.mpr ⟨driver, driverPath driver, rfl, ?_, rfl⟩, ?_⟩
    · exact fun _ => List.mem_cons_self
    · exact entry_add h.lawful hproper.1
  | setPath driver devNode =>
    have hgroup := hasGroup_iff.mpr hready
    -- the tool finds the group
    refine ⟨_, biometricConfigSetKey_eq_some.mpr ⟨driver, "Path", devNode, rfl, hgroup, ?_, rfl⟩,
      ?_⟩
    · exact fun _ => ⟨fun h => Flag.noConfusion (List.mem_singleton.mp h), List.mem_cons_self⟩
    · exact entry_setValue_ready h.lawful _ h.isKeyName_path hgroup
  | enable driver =>
    have hgroup := hasGroup_iff.mpr hready
    -- the driver is the only argument, and it has a group
    refine ⟨[driver].foldl (setEnable glib true) keyFile,
      forDrivers_eq_some.mpr ⟨⟨List.cons_ne_nil _ _, fun _ hdriver => ?_⟩, rfl⟩, ?_⟩
    · exact .inl (List.mem_singleton.mp hdriver ▸ hgroup)
    · rw [List.foldl_cons, List.foldl_nil, setEnable, if_pos hgroup]
      exact entry_setValue_ready h.lawful _ h.lawful.isKeyName_enable hgroup
  | remove driver =>
    -- a group that is missing would be passed over
    refine ⟨[driver].foldl glib.removeGroup keyFile,
      forDrivers_eq_some.mpr ⟨⟨List.cons_ne_nil _ _, fun _ _ => ?_⟩, rfl⟩, ?_⟩
    · exact .inr List.mem_cons_self
    · exact entry_remove h.lawful driver

/-- A call that does not find what it needs leaves the file alone. -/
theorem not_saved (h : Reliable glib parse) {change : ConfigChange}
    (hproper : change.Proper glib) (hready : ¬ change.Ready (glib.entry keyFile))
    (saved : κ) : biometricConfigRun glib change.call keyFile parse ≠ .ok (some saved) := by
  rw [biometricConfigRun_call h hproper]
  intro hsaved
  have haccepts := (change.parsed.1.exists_fn_iff).mp ⟨saved, hsaved⟩
  cases change with
  | add | remove => exact hready trivial
  | setPath driver devNode => exact hready (hasGroup_iff.mp haccepts.1)
  | enable driver =>
    have hgroup := haccepts.2 driver List.mem_cons_self
    exact hready (hasGroup_iff.mp (hgroup.resolve_right List.not_mem_nil))

/-! ### Values that stand in the file as they are -/

/-- The values that a command is given. -/
def ConfigCommand.PlainValues (glib : GKeyFile κ φ) : ConfigCommand → List String → Prop
  | addDriver, [_, driverPath] => glib.isPlain "Driver" driverPath = true
  | setKey, [_, key, value] => glib.isPlain key value = true
  | _, _ => True

theorem plain_setValue (h : Reliable glib parse) {g k value : String} (hplain : glib.Plain keyFile)
    (hvalue : glib.isPlain k value = true) : glib.Plain (glib.setValue keyFile g k value) := by
  intro g' k' value' hget
  by_cases hsame : (g', k') = (g, k)
  · obtain ⟨rfl, rfl⟩ := Prod.mk.inj hsame
    rcases h.getValue_setValue_self keyFile _ _ value value' hget with rfl | hbefore
    · exact hvalue
    · exact hplain _ _ _ hbefore
  · rw [h.lawful.getValue_setValue_of_ne _ _ _ _ _ _ hsame] at hget
    exact hplain _ _ _ hget

theorem plain_setEnable (h : Reliable glib parse) (enable : Bool) {driver : String}
    (hplain : glib.Plain keyFile) : glib.Plain (setEnable glib enable keyFile driver) := by
  unfold setEnable
  split
  · exact plain_setValue h hplain (h.isPlain_enable enable)
  · exact hplain

theorem plain_removeGroup (h : Reliable glib parse) {driver : String}
    (hplain : glib.Plain keyFile) : glib.Plain (glib.removeGroup keyFile driver) := by
  intro g k value hget
  rw [h.lawful.getValue_removeGroup] at hget
  exact hplain g k value (Option.ite_none_left_eq_some.mp hget).2

/-- A command that is given such values saves a key file of such values. -/
theorem ConfigCommand.plain_saved (h : Reliable glib parse) {command : ConfigCommand}
    {flags : List Flag} {args : List String} {saved : κ} (hplain : glib.Plain keyFile)
    (hvalues : command.PlainValues glib args)
    (hfn : command.fn glib flags args keyFile = .ok (some saved)) : glib.Plain saved := by
  cases command with
  | addDriver =>
    -- two values are set
    obtain ⟨driverName, driverPath, rfl, -, rfl⟩ := biometricConfigAddDriver_eq_some.mp hfn
    refine plain_setValue h ?_ hvalues
    have henable := h.isPlain_enable (decide (Flag.driverDisable ∉ flags))
    exact plain_setValue h hplain henable
  | removeDriver =>
    -- a group that is removed takes its values along
    obtain ⟨-, rfl⟩ := forDrivers_eq_some.mp hfn
    exact List.foldlRecOn _ _ hplain fun keyFile hplain driver _ => plain_removeGroup h hplain
  | enableDriver =>
    -- each driver of the list gets a value of the tool's own
    obtain ⟨-, rfl⟩ := forDrivers_eq_some.mp hfn
    exact List.foldlRecOn _ _ hplain fun keyFile hplain driver _ => plain_setEnable h true hplain
  | disableDriver =>
    obtain ⟨-, rfl⟩ := forDrivers_eq_some.mp hfn
    exact List.foldlRecOn _ _ hplain fun keyFile hplain driver _ => plain_setEnable h false hplain
  | setKey =>
    -- the value is the argument
    obtain ⟨driverName, key, value, rfl, -, -, rfl⟩ := biometricConfigSetKey_eq_some.mp hfn
    exact plain_setValue h hplain hvalues
  | removeKey =>
    -- the key is gone, and the other ones are as they were
    obtain ⟨driverName, key, rfl, -, rfl⟩ := biometricConfigRemoveKey_eq_some.mp hfn
    intro g k value hget
    by_cases hsame : (g, k) = (driverName, key)
    · obtain ⟨rfl, rfl⟩ := Prod.mk.inj hsame
      rw [h.getValue_removeKey_self] at hget
      cases hget
    · rw [h.lawful.getValue_removeKey_of_ne _ _ _ _ _ hsame] at hget
      exact hplain _ _ _ hget

theorem configInit_eq (glib : GKeyFile κ φ) (file : Option φ) :
    (configInit glib file).1 = (glib.loadFromFile file).1 := by
  unfold configInit
  split <;> simp_all

theorem plain_configInit (h : Reliable glib parse) (file : Option φ) :
    glib.Plain (configInit glib file).1 := configInit_eq glib file ▸ h.plain_loadFromFile file

/-! ### Runs of the tool -/

/-- The file can be loaded: what it says is in memory then. -/
def Loads (glib : GKeyFile κ φ) (file : Option φ) : Prop :=
  glib.entry (configInit glib file).1 = glib.fileContents file

/-- A text that was saved says what was saved, and can be loaded. -/
theorem loads_toData (h : Reliable glib parse) {saved : κ} (hplain : glib.Plain saved) :
    Loads glib (some (glib.toData saved)) ∧
      glib.fileContents (some (glib.toData saved)) = glib.entry saved := by
  have hcontents : glib.fileContents (some (glib.toData saved)) = glib.entry saved :=
    h.contents_toData saved hplain
  refine ⟨?_, hcontents⟩
  rw [Loads, hcontents, ← h.load_toData saved hplain, configInit_eq]

variable {file : Option φ} {change : ConfigChange}

/-- The values of the script. -/
theorem plainValues_parsed (hproper : change.Proper glib) :
    change.parsed.1.PlainValues glib change.parsed.2.2 := by
  cases change with
  | add driver => exact hproper.2.2
  | setPath driver devNode => exact hproper.2.2.2
  | enable | remove => trivial

/-- A call that finds what it needs and can save makes its change. -/
theorem callTool_saved (h : Reliable glib parse) (hproper : change.Proper glib)
    (hloads : Loads glib file) (hready : change.Ready (glib.fileContents file)) :
    Loads glib (callTool glib parse file (change.call, true)) ∧
      glib.fileContents (callTool glib parse file (change.call, true)) =
        change.write.apply (glib.fileContents file) := by
  rw [← hloads] at hready ⊢
  obtain ⟨saved, hsaved, hentry⟩ := exists_saved h hproper hready
  have hplain : glib.Plain saved := ConfigCommand.plain_saved h (plain_configInit h file)
    (plainValues_parsed hproper) ((biometricConfigRun_call h hproper).symm.trans hsaved)
  rw [callTool, configTool_file_of_saved glib true hsaved, if_pos rfl, ← hentry]
  exact loads_toData h hplain

/-- Any call makes its change, or leaves the file alone. -/
theorem callTool_cases (h : Reliable glib parse) (hproper : change.Proper glib)
    (hloads : Loads glib file) (canSave : Bool) :
    callTool glib parse file (change.call, canSave) = file ∨
      Loads glib (callTool glib parse file (change.call, canSave)) ∧
        glib.fileContents (callTool glib parse file (change.call, canSave)) =
          change.write.apply (glib.fileContents file) := by
  by_cases hready : change.Ready (glib.fileContents file)
  · cases canSave with
    | true => exact .inr (callTool_saved h hproper hloads hready)
    | false =>
      rw [← hloads] at hready
      obtain ⟨saved, hsaved, -⟩ := exists_saved h hproper hready
      exact .inl (configTool_file_of_saved glib false hsaved)
  · rw [← hloads] at hready
    exact .inl (configTool_file_of_not_saved glib canSave fun saved =>
      not_saved h hproper hready saved)

/-- After any calls of which some are missed the file is as after some of the writes. -/
theorem exists_writes (h : Reliable glib parse) {calls : List (ConfigChange × Bool)}
    (hproper : ∀ call ∈ calls, call.1.Proper glib) (hloads : Loads glib file) :
    let file' := callTools glib parse (calls.map fun call => (call.1.call, call.2)) file
    ∃ ws ⊆ calls.map fun call => call.1.write, Loads glib file' ∧
      glib.fileContents file' = (all ws).apply (glib.fileContents file) := by
  induction calls generalizing file with
  | nil => exact ⟨[], List.nil_subset _, hloads, rfl⟩
  | cons call calls ih =>
    obtain ⟨hcall, hcalls⟩ := List.forall_mem_cons.mp hproper
    rw [List.map_cons, List.map_cons, callTools, List.foldl_cons, ← callTools]
    rcases callTool_cases h hcall hloads call.2 with hsame | ⟨hloads', hcontents⟩
    · obtain ⟨ws, hws, hrest⟩ := ih hcalls hloads
      rw [hsame]
      exact ⟨ws, List.subset_cons_of_subset _ hws, hrest⟩
    · obtain ⟨ws, hws, hrest⟩ := ih hcalls hloads'
      refine ⟨call.1.write :: ws, List.cons_subset_cons _ hws, hrest.1, ?_⟩
      rw [hrest.2, hcontents, all_cons_apply]

/-- Each change finds what it needs when those before it have been made. -/
def ReadyAll : List ConfigChange → Contents → Prop
  | [], _ => True
  | change :: changes, c => change.Ready c ∧ ReadyAll changes (change.write.apply c)

theorem readyAll_append {changes changes' : List ConfigChange} {c : Contents}
    (h : ReadyAll changes c) (h' : ∀ c, ReadyAll changes' c) :
    ReadyAll (changes ++ changes') c := by
  induction changes generalizing c with
  | nil => exact h' c
  | cons change changes ih => exact ⟨h.1, ih h.2⟩

/-- A run that can always save makes all its changes. -/
theorem discoverInto_contents (h : Reliable glib parse) {changes : List ConfigChange}
    (hproper : ∀ change ∈ changes, change.Proper glib) (hloads : Loads glib file)
    (hready : ReadyAll changes (glib.fileContents file)) :
    glib.fileContents (discoverInto glib parse (changes.map ConfigChange.call) file) =
      (all (changes.map ConfigChange.write)).apply (glib.fileContents file) := by
  induction changes generalizing file with
  | nil => rfl
  | cons change changes ih =>
    obtain ⟨hchange, hchanges⟩ := List.forall_mem_cons.mp hproper
    obtain ⟨hloads', hcontents⟩ := callTool_saved h hchange hloads hready.1
    rw [List.map_cons, List.map_cons, all_cons_apply, ← hcontents]
    refine ih hchanges hloads' ?_
    rw [hcontents]
    exact hready.2

end Changes

end BiometricAuth
