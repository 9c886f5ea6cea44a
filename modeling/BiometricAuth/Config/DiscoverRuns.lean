import BiometricAuth.Config.DeviceDiscover

/-!
# Runs of the discovery

Between two steps of a run an attached reader can be disabled or half configured, and a run can be
broken off there. Since every step is a write, the whole run is one (`discoverInto_eq`).

Main results:

* `discover_configures`: what the file says after a run;
* `discover_recovers`: a run after some that were broken off or could not save ends as if there had
  been none before;
* `discover_enables_reported`: the community drivers that are enabled are those that libfprint
  reports a device of.
-/

namespace BiometricAuth

open Overwrite

/-! ### What a run writes -/

/-- The changes for one device node. -/
def nodeChanges (deviceType : DeviceType) (driver devNode : String) : List ConfigChange :=
  (if deviceType = .serial then [.setPath driver devNode] else []) ++ [.enable driver]

/-- The changes for one driver. -/
def configChanges (deviceType : DeviceType) (driver devNodeList : String) : List ConfigChange :=
  if devNodeList ≠ "" then
    .add driver :: (shellWords devNodeList).flatMap (nodeChanges deviceType driver)
  else if deviceType = .serial then
    [.remove driver]
  else
    []

/-- What is written for one device node. -/
def nodeWrite (deviceType : DeviceType) (driver devNode : String) :
    Write Entry (Option String) :=
  match deviceType with
  | .serial => (ConfigChange.keyWrite driver "Enable" "true").after
      (ConfigChange.keyWrite driver "Path" devNode)
  | .usb | .pcie => ConfigChange.keyWrite driver "Enable" "true"

/-- What is written for the device nodes: the last one counts. -/
def lastNodeWrite (deviceType : DeviceType) (driver : String) (devNodes : List String) :
    Write Entry (Option String) :=
  devNodes.getLast?.elim (fun _ => none) (nodeWrite deviceType driver)

/-- What is written for one driver. -/
def discoverWrite (deviceType : DeviceType) (driver devNodeList : String) :
    Write Entry (Option String) :=
  if devNodeList ≠ "" then
    (lastNodeWrite deviceType driver (shellWords devNodeList)).after
      (ConfigChange.add driver).write
  else if deviceType = .serial then
    (ConfigChange.remove driver).write
  else
    fun _ => none

section Writes

variable {deviceType : DeviceType} {driver devNodeList : String}

theorem map_call_configChanges : (configChanges deviceType driver devNodeList).map
    ConfigChange.call = configCalls deviceType driver devNodeList := by
  unfold configChanges configCalls
  split
  · rw [List.map_cons, List.map_flatMap]
    congr 2
    funext devNode
    unfold nodeChanges
    split <;> rfl
  · split <;> rfl

/-- A driver that is there stays there. -/
theorem readyAll_nodeChanges (devNodes : List String) {c : Contents}
    (hgroup : c (.group driver) ≠ none) :
    ReadyAll (devNodes.flatMap (nodeChanges deviceType driver)) c := by
  induction devNodes generalizing c with
  | nil => trivial
  | cons devNode devNodes ih =>
    rw [List.flatMap_cons, nodeChanges]
    split
    · refine ⟨hgroup, hgroup, ih ?_⟩
      exact hgroup
    · refine ⟨hgroup, ih ?_⟩
      exact hgroup

theorem readyAll_configChanges (c : Contents) :
    ReadyAll (configChanges deviceType driver devNodeList) c := by
  unfold configChanges
  split
  · refine ⟨trivial, readyAll_nodeChanges _ ?_⟩
    rw [apply_of_some (a := some "") (by simp [ConfigChange.write])]
    exact Option.some_ne_none _
  · split
    · exact ⟨trivial, trivial⟩
    · trivial

theorem all_nodeChanges (devNode : String) :
    all ((nodeChanges deviceType driver devNode).map ConfigChange.write) =
      nodeWrite deviceType driver devNode := by
  funext e
  cases deviceType <;> simp [nodeChanges, nodeWrite, all, Write.after, ConfigChange.write]

/-- The writes for two device nodes have the same places. -/
theorem nodeWrite_covers {devNode devNode' : String} {e : Entry}
    (h : nodeWrite deviceType driver devNode' e = none) :
    nodeWrite deviceType driver devNode e = none := by
  cases e with
  | group g => cases deviceType <;> rfl
  | key g k =>
    cases deviceType <;>
      simp_all [nodeWrite, Write.after, ConfigChange.keyWrite, Option.or_eq_none_iff]

/-- The last device node covers those before it. -/
theorem all_nodeWrites (devNodes : List String) :
    all (devNodes.map (nodeWrite deviceType driver)) =
      lastNodeWrite deviceType driver devNodes := by
  rcases List.eq_nil_or_concat devNodes with rfl | ⟨before, devNode, rfl⟩
  · rfl
  · rw [lastNodeWrite, List.concat_eq_append, List.map_append, all_append, List.getLast?_concat]
    refine after_eq_of_covers fun e he => all_eq_none_iff.mpr fun w hw => ?_
    obtain ⟨devNode', -, rfl⟩ := List.mem_map.mp hw
    have he' : nodeWrite deviceType driver devNode e = none := by
      simpa [all, Write.after] using he
    exact nodeWrite_covers he'

theorem all_configChanges : all ((configChanges deviceType driver devNodeList).map
    ConfigChange.write) = discoverWrite deviceType driver devNodeList := by
  unfold configChanges discoverWrite
  split
  · rw [List.map_cons, all, List.map_flatMap, all_flatMap, ← all_nodeWrites]
    simp only [all_nodeChanges]
  · split <;> rfl

/-- The entries that are written for one driver. -/
def writtenEntries (deviceType : DeviceType) (driver devNodeList : String) : Set Entry :=
  if devNodeList ≠ "" then
    {e | e = .group driver ∨ e = .key driver "Enable" ∨ e = .key driver "Driver" ∨
      deviceType = .serial ∧ shellWords devNodeList ≠ [] ∧ e = .key driver "Path"}
  else if deviceType = .serial then
    Entry.ofGroup driver
  else
    ∅

/-- What is written for a driver whose tool prints something. -/
theorem discoverWrite_of_ne (deviceType : DeviceType) (driver : String) (hne : devNodeList ≠ "") :
    discoverWrite deviceType driver devNodeList (.group driver) = some (some "") ∧
      discoverWrite deviceType driver devNodeList (.key driver "Driver") =
        some (some (driverPath driver)) ∧
      discoverWrite deviceType driver devNodeList (.key driver "Enable") =
        some (some (if shellWords devNodeList = [] then "false" else "true")) ∧
      (deviceType = .serial → shellWords devNodeList ≠ [] →
        discoverWrite deviceType driver devNodeList (.key driver "Path") =
          some (shellWords devNodeList).getLast?) := by
  rw [discoverWrite, if_pos hne, lastNodeWrite]
  cases hlast : (shellWords devNodeList).getLast? with
  | none =>
    rw [List.getLast?_eq_none_iff] at hlast
    simp [hlast, Write.after, ConfigChange.write, ConfigChange.keyWrite]
  | some devNode =>
    have hwords : shellWords devNodeList ≠ [] := fun h => by
      rw [h] at hlast
      cases hlast
    cases deviceType <;>
      simp [hwords, nodeWrite, Write.after, ConfigChange.write, ConfigChange.keyWrite]

/-- What is written for a serial driver whose tool prints nothing. -/
theorem discoverWrite_remove {e : Entry} (he : e ∈ Entry.ofGroup driver) :
    discoverWrite .serial driver "" e = some none := by
  rcases he with rfl | ⟨k, rfl⟩ <;> simp [discoverWrite, ConfigChange.write]

/-- For a driver of another type nothing is written then. -/
theorem discoverWrite_of_ne_serial (htype : deviceType ≠ .serial) :
    discoverWrite deviceType driver "" = fun _ => none := by
  rw [discoverWrite, if_neg (not_not.mpr rfl), if_neg htype]

/-- Nothing else is written. -/
theorem discoverWrite_eq_none {e : Entry}
    (he : e ∉ writtenEntries deviceType driver devNodeList) :
    discoverWrite deviceType driver devNodeList e = none := by
  unfold writtenEntries at he
  unfold discoverWrite
  split at he
  next hne =>
    -- the tool has printed something: no command writes the entry
    simp only [Set.mem_ofPred_eq, not_or, not_and] at he
    obtain ⟨hgroup, henable, hdriver, hpath⟩ := he
    rw [if_pos hne, lastNodeWrite]
    cases e with
    | group g =>
      have hg : g ≠ driver := fun h => hgroup (by rw [h])
      cases (shellWords devNodeList).getLast? <;> cases deviceType <;>
        simp [nodeWrite, Write.after, ConfigChange.write, ConfigChange.keyWrite, hg]
    | key g k =>
      -- a key of the driver, but none of those that are written
      by_cases hg : g = driver
      · subst hg
        have hk : k ≠ "Enable" := fun h => henable (by rw [h])
        have hk' : k ≠ "Driver" := fun h => hdriver (by rw [h])
        cases hlast : (shellWords devNodeList).getLast? with
        | none => simp [Write.after, ConfigChange.write, ConfigChange.keyWrite, hk, hk']
        | some devNode =>
          have hwords : shellWords devNodeList ≠ [] := fun h => by
            rw [h] at hlast
            cases hlast
          have hk'' : deviceType = .serial → k ≠ "Path" := fun hs h => hpath hs hwords (by rw [h])
          cases deviceType <;>
            simp_all [nodeWrite, Write.after, ConfigChange.write, ConfigChange.keyWrite]
      · -- a key of another driver
        cases (shellWords devNodeList).getLast? <;> cases deviceType <;>
          simp [nodeWrite, Write.after, ConfigChange.write, ConfigChange.keyWrite, hg]
  next hnil =>
    -- the tool has printed nothing: the driver is removed, if the tool is a serial one
    rw [if_neg hnil]
    split at he
    next htype =>
      rw [if_pos htype]
      cases e with
      | group g => exact if_neg fun h => he (.inl (by rw [h]))
      | key g k => exact if_neg fun h => he (.inr ⟨k, by rw [h]⟩)
    next htype => rw [if_neg htype]

theorem writtenEntries_subset :
    writtenEntries deviceType driver devNodeList ⊆ Entry.ofGroup driver := by
  intro e he
  unfold writtenEntries at he
  split at he
  · rcases he with rfl | rfl | rfl | ⟨-, -, rfl⟩
    exacts [.inl rfl, .inr ⟨_, rfl⟩, .inr ⟨_, rfl⟩, .inr ⟨_, rfl⟩]
  · split at he
    · exact he
    · exact he.elim

theorem mem_of_written {e : Entry} {value : Option String}
    (h : discoverWrite deviceType driver devNodeList e = some value) :
    e ∈ writtenEntries deviceType driver devNodeList := by
  by_contra he
  rw [discoverWrite_eq_none he] at h
  cases h

/-- An entry is one of a driver. -/
theorem eq_of_mem_ofGroup {e : Entry} {driver' : String} (h : e ∈ Entry.ofGroup driver)
    (h' : e ∈ Entry.ofGroup driver') : driver = driver' := by
  rcases h with rfl | ⟨k, rfl⟩ <;> rcases h' with h' | ⟨k', h'⟩ <;> cases h' <;> rfl

end Writes

/-! ### Runs of the script -/

section Run

variable {κ φ : Type} {glib : GKeyFile κ φ} {parse : OptionParser} {file : Option φ}
  (runTool : DeviceType → String → String) (discoverList : List String)
  (deviceTypes : List DeviceType)

/-- The drivers that the script comes to. -/
def discovered : List (DeviceType × String) :=
  deviceTypes.flatMap fun deviceType => (drvList deviceType discoverList).map (Prod.mk deviceType)

/-- `dev_node_list`, of the tool of a device type and a driver. -/
def devNodeList (tool : DeviceType × String) : String :=
  commandSubstitution (runTool tool.1 tool.2)

/-- The tool that decides about a driver: the last one of it that prints something. -/
def decidingTool (driver : String) : Option (DeviceType × String) :=
  ((discovered discoverList deviceTypes).filter fun tool =>
    tool.2 = driver ∧ devNodeList runTool tool ≠ "").getLast?

/-- What the calls of the script are for. -/
def discoverChanges : List ConfigChange :=
  (discovered discoverList deviceTypes).flatMap fun tool =>
    configChanges tool.1 tool.2 (devNodeList runTool tool)

/-- What a run writes. -/
def discoverWrites : List (Write Entry (Option String)) :=
  (discovered discoverList deviceTypes).map fun tool =>
    discoverWrite tool.1 tool.2 (devNodeList runTool tool)

/-- No name or device node is taken for an option, the names can be those of groups, and the values
stand in the file as they are. -/
def ProperTools (glib : GKeyFile κ φ) : Prop :=
  ∀ tool ∈ discovered discoverList deviceTypes, glib.isGroupName tool.2 = true ∧
    tool.2.toList.head? ≠ some '-' ∧ glib.isPlain "Driver" (driverPath tool.2) = true ∧
      ∀ devNode ∈ shellWords (devNodeList runTool tool), devNode.toList.head? ≠ some '-' ∧
        glib.isPlain "Path" devNode = true

variable {runTool discoverList deviceTypes}

theorem map_call_discoverChanges : (discoverChanges runTool discoverList deviceTypes).map
    ConfigChange.call = biometricDeviceDiscover runTool discoverList deviceTypes := by
  rw [discoverChanges, discovered, biometricDeviceDiscover, List.map_flatMap, List.flatMap_assoc]
  simp only [List.flatMap_map, map_call_configChanges, devNodeList]

theorem all_discoverChanges : all ((discoverChanges runTool discoverList deviceTypes).map
    ConfigChange.write) = all (discoverWrites runTool discoverList deviceTypes) := by
  rw [discoverChanges, List.map_flatMap, all_flatMap]
  simp only [all_configChanges]
  rfl

theorem readyAll_discoverChanges (c : Contents) :
    ReadyAll (discoverChanges runTool discoverList deviceTypes) c := by
  unfold discoverChanges
  induction discovered discoverList deviceTypes generalizing c with
  | nil => trivial
  | cons tool tools ih => exact readyAll_append (readyAll_configChanges c) ih

theorem proper_discoverChanges (hproper : ProperTools runTool discoverList deviceTypes glib) :
    ∀ change ∈ discoverChanges runTool discoverList deviceTypes, change.Proper glib := by
  intro change hchange
  obtain ⟨tool, htool, hchange⟩ := List.mem_flatMap.mp hchange
  obtain ⟨hname, hdriver, hpath, hnodes⟩ := hproper tool htool
  unfold configChanges at hchange
  split at hchange
  · rcases List.mem_cons.mp hchange with rfl | hchange
    · exact ⟨hname, hdriver, hpath⟩
    · obtain ⟨devNode, hnode, hchange⟩ := List.mem_flatMap.mp hchange
      rcases List.mem_append.mp hchange with hset | henable
      · split at hset
        · obtain rfl := List.mem_singleton.mp hset
          exact ⟨hname, hdriver, hnodes devNode hnode⟩
        · cases hset
      · obtain rfl := List.mem_singleton.mp henable
        exact ⟨hname, hdriver⟩
  · split at hchange
    · obtain rfl := List.mem_singleton.mp hchange
      exact ⟨hname, hdriver⟩
    · cases hchange

/-- A run of the script is one write. -/
theorem discoverInto_eq (h : Reliable glib parse)
    (hproper : ProperTools runTool discoverList deviceTypes glib) (hloads : Loads glib file) :
    glib.fileContents (discoverInto glib parse
      (biometricDeviceDiscover runTool discoverList deviceTypes) file) =
      (all (discoverWrites runTool discoverList deviceTypes)).apply (glib.fileContents file) := by
  rw [← map_call_discoverChanges, ← all_discoverChanges]
  exact discoverInto_contents h (proper_discoverChanges hproper) hloads (readyAll_discoverChanges _)

/-- **A run of the script can be repeated.** After any earlier runs with the same calls, of which
each was broken off at some call or could not save at some, a run that is not ends as if it had been
the first. -/
theorem discover_recovers (h : Reliable glib parse)
    (hproper : ProperTools runTool discoverList deviceTypes glib) (hloads : Loads glib file)
    (runs : List (List Bool)) :
    let calls := biometricDeviceDiscover runTool discoverList deviceTypes
    let file' := runs.foldl (fun file saves => callTools glib parse (calls.zip saves) file) file
    glib.fileContents (discoverInto glib parse calls file') =
      glib.fileContents (discoverInto glib parse calls file) := by
  intro calls
  induction runs generalizing file with
  | nil => rfl
  | cons saves runs ih =>
    intro file'
    -- the calls are those that write the changes
    have hzip : calls.zip saves = ((discoverChanges runTool discoverList deviceTypes).zip saves).map
        fun call => (call.1.call, call.2) := by
      rw [show calls = _ from map_call_discoverChanges.symm]
      exact List.zip_map_left
    have hcalls : ∀ call ∈ (discoverChanges runTool discoverList deviceTypes).zip saves,
        call.1.Proper glib :=
      fun call hcall => proper_discoverChanges hproper _ (List.of_mem_zip hcall).1
    obtain ⟨ws, hws, hloads', hcontents⟩ := exists_writes h hcalls hloads
    rw [← hzip] at hloads' hcontents
    refine (ih hloads').trans ?_
    rw [discoverInto_eq h hproper hloads', discoverInto_eq h hproper hloads, hcontents,
      ← all_discoverChanges]
    refine all_apply_of_subset fun w hw => ?_
    obtain ⟨call, hcall, rfl⟩ := List.mem_map.mp (hws hw)
    exact List.mem_map_of_mem (List.of_mem_zip hcall).1

/-- What the file says after a run, and what it said before. -/
structure Configured (runTool : DeviceType → String → String) (discoverList : List String)
    (deviceTypes : List DeviceType) (c c' : Contents) : Prop where
  /-- A driver of which a tool prints something is there, with its library. It is enabled if the
  tool that decides prints a device node. -/
  attached : ∀ driver tool, decidingTool runTool discoverList deviceTypes driver = some tool →
    c' (.group driver) = some "" ∧ c' (.key driver "Driver") = some (driverPath driver) ∧
      c' (.key driver "Enable") =
        some (if shellWords (devNodeList runTool tool) = [] then "false" else "true")
  /-- A serial driver has the last device node. -/
  path : ∀ driver, (.serial, driver) ∈ discovered discoverList deviceTypes →
    shellWords (devNodeList runTool (.serial, driver)) ≠ [] →
      c' (.key driver "Path") = (shellWords (devNodeList runTool (.serial, driver))).getLast?
  /-- A serial driver of which no tool prints anything is gone. -/
  removed : ∀ driver, (.serial, driver) ∈ discovered discoverList deviceTypes →
    decidingTool runTool discoverList deviceTypes driver = none →
      ∀ e ∈ Entry.ofGroup driver, c' e = none
  /-- Everything else is as it was. -/
  frame : ∀ e, (∀ tool ∈ discovered discoverList deviceTypes,
    e ∉ writtenEntries tool.1 tool.2 (devNodeList runTool tool)) → c' e = c e

/-- The serial drivers come first. -/
theorem pairwise_discovered (deviceType : Option DeviceType) :
    (discovered discoverList (deviceTypeList deviceType)).Pairwise fun tool tool' =>
      tool'.1 = .serial → tool.1 = .serial := by
  have htypes : (deviceTypeList deviceType).Pairwise fun type type' =>
      type' = DeviceType.serial → type = DeviceType.serial := by
    cases deviceType with
    | none => decide
    | some type => exact List.pairwise_singleton _ _
  refine List.pairwise_flatMap.mpr ⟨fun type _ => ?_, htypes.imp fun htype => ?_⟩
  · refine List.pairwise_map.mpr (List.pairwise_of_forall fun driver driver' htype => htype)
  · intro tool htool tool' htool' hserial
    obtain ⟨driver, -, rfl⟩ := List.mem_map.mp htool
    obtain ⟨driver', -, rfl⟩ := List.mem_map.mp htool'
    exact htype hserial

/-- A tool that decides, with those behind it. -/
theorem exists_of_decidingTool {driver : String} {tool : DeviceType × String}
    (h : decidingTool runTool discoverList deviceTypes driver = some tool) :
    tool.2 = driver ∧ devNodeList runTool tool ≠ "" ∧
      ∃ before behind, discovered discoverList deviceTypes = before ++ tool :: behind ∧
        ∀ tool' ∈ behind, tool'.2 = driver → devNodeList runTool tool' = "" := by
  obtain ⟨before, hbefore⟩ := List.getLast?_eq_some_iff.mp h
  obtain ⟨l₁, l₂, hl, -, hl₂⟩ := List.filter_eq_append_iff.mp hbefore
  obtain ⟨l₃, l₄, rfl, -, htool, hnil⟩ := List.filter_eq_cons_iff.mp hl₂
  obtain ⟨hdriver, hne⟩ := of_decide_eq_true htool
  refine ⟨hdriver, hne, l₁ ++ l₃, l₄, by rw [hl, List.append_assoc], fun tool' htool' hsame => ?_⟩
  have hnot := List.filter_eq_nil_iff.mp hnil tool' htool'
  exact not_not.mp fun hne' => hnot (decide_eq_true ⟨hsame, hne'⟩)

theorem mem_of_decidingTool {driver : String} {tool : DeviceType × String}
    (h : decidingTool runTool discoverList deviceTypes driver = some tool) :
    tool ∈ discovered discoverList deviceTypes ∧ tool.2 = driver := by
  obtain ⟨hdriver, -, before, behind, hall, -⟩ := exists_of_decidingTool h
  exact ⟨hall ▸ List.mem_append_right _ List.mem_cons_self, hdriver⟩

theorem decidingTool_eq_none {driver : String} :
    decidingTool runTool discoverList deviceTypes driver = none ↔
      ∀ tool ∈ discovered discoverList deviceTypes, tool.2 = driver →
        devNodeList runTool tool = "" := by
  rw [decidingTool, List.getLast?_eq_none_iff, List.filter_eq_nil_iff]
  simp

/-- The only tool of a driver decides about it. -/
theorem decidingTool_eq_some {type : DeviceType} {driver : String}
    (htool : (type, driver) ∈ discovered discoverList deviceTypes)
    (hne : devNodeList runTool (type, driver) ≠ "")
    (honly : ∀ type', (type', driver) ∈ discovered discoverList deviceTypes → type' = type) :
    decidingTool runTool discoverList deviceTypes driver = some (type, driver) := by
  cases hdecides : decidingTool runTool discoverList deviceTypes driver with
  | none => exact absurd (decidingTool_eq_none.mp hdecides _ htool rfl) hne
  | some tool =>
    obtain ⟨hmem, rfl⟩ := mem_of_decidingTool hdecides
    rw [← honly tool.1 hmem]

/-- What is written last for a driver of which a tool prints something. -/
theorem all_discoverWrites_attached {deviceType : Option DeviceType} {driver : String}
    {tool : DeviceType × String}
    (hdecides : decidingTool runTool discoverList (deviceTypeList deviceType) driver = some tool)
    {e : Entry} {value : Option String} (he : e ≠ .key driver "Path")
    (hvalue : discoverWrite tool.1 tool.2 (devNodeList runTool tool) e = some value) :
    all (discoverWrites runTool discoverList (deviceTypeList deviceType)) e = some value := by
  obtain ⟨rfl, hne, before, behind, hall, hbehind⟩ := exists_of_decidingTool hdecides
  have hpairwise := @pairwise_discovered discoverList deviceType
  rw [hall] at hpairwise
  rw [discoverWrites, hall, List.map_append, List.map_cons]
  refine all_eq_some_of_last hvalue fun w hw => ?_
  obtain ⟨tool', htool', rfl⟩ := List.mem_map.mp hw
  by_contra hwritten
  obtain ⟨value', hvalue'⟩ := Option.ne_none_iff_exists'.mp hwritten
  have hsame : tool'.2 = tool.2 := eq_of_mem_ofGroup
    (writtenEntries_subset (mem_of_written hvalue')) (writtenEntries_subset (mem_of_written hvalue))
  have hnil := hbehind tool' htool' hsame
  have htype : tool'.1 = .serial := by
    by_contra htype
    rw [hnil, discoverWrite_of_ne_serial htype] at hvalue'
    cases hvalue'
  -- a serial tool behind it would be the same
  have hserial : tool.1 = .serial :=
    (List.pairwise_cons.mp (List.pairwise_append.mp hpairwise).2.1).1 tool' htool' htype
  rw [show tool' = tool from Prod.ext (htype.trans hserial.symm) hsame] at hnil
  exact hne hnil

/-- What is written where all the tools of a driver agree. -/
theorem all_discoverWrites_eq_some {tool : DeviceType × String} {e : Entry} {value : Option String}
    (htool : tool ∈ discovered discoverList deviceTypes)
    (hvalue : discoverWrite tool.1 tool.2 (devNodeList runTool tool) e = some value)
    (hagree : ∀ tool' ∈ discovered discoverList deviceTypes, tool'.2 = tool.2 → ∀ value',
      discoverWrite tool'.1 tool'.2 (devNodeList runTool tool') e = some value' →
        value' = value) :
    all (discoverWrites runTool discoverList deviceTypes) e = some value := by
  have hsome : discoverWrite tool.1 tool.2 (devNodeList runTool tool) e ≠ none := by
    rw [hvalue]
    exact Option.some_ne_none _
  refine all_eq_some_of_agree ⟨_, List.mem_map_of_mem htool, hsome⟩ fun w hw value' hvalue' => ?_
  obtain ⟨tool', htool', rfl⟩ := List.mem_map.mp hw
  exact hagree tool' htool' (eq_of_mem_ofGroup (writtenEntries_subset (mem_of_written hvalue'))
    (writtenEntries_subset (mem_of_written hvalue))) value' hvalue'

/-- What is written last is what a configured file says. -/
theorem configured_apply (deviceType : Option DeviceType) (c : Contents) :
    Configured runTool discoverList (deviceTypeList deviceType) c
      ((all (discoverWrites runTool discoverList (deviceTypeList deviceType))).apply c) := by
  refine ⟨fun driver tool hdecides => ?_, fun driver htool hwords => ?_,
    fun driver htool hnone e he => ?_, fun e he => ?_⟩
  · -- a driver whose deciding tool prints something gets its group, library and key
    obtain ⟨rfl, hne, -⟩ := exists_of_decidingTool hdecides
    obtain ⟨hgroup, hdriver, henable, -⟩ := discoverWrite_of_ne tool.1 tool.2 hne
    refine ⟨?_, ?_, ?_⟩
    · exact apply_of_some (all_discoverWrites_attached hdecides (by simp) hgroup)
    · exact apply_of_some (all_discoverWrites_attached hdecides (by simp) hdriver)
    · exact apply_of_some (all_discoverWrites_attached hdecides (by simp) henable)
  · -- a serial tool writes its last device as the path
    have hne : devNodeList runTool (.serial, driver) ≠ "" := fun h => hwords (by rw [h]; rfl)
    obtain ⟨-, -, -, hpath⟩ := discoverWrite_of_ne .serial driver hne
    refine apply_of_some (all_discoverWrites_eq_some htool (hpath rfl hwords) ?_)
    rintro ⟨type', driver'⟩ htool' rfl value' hvalue'
    -- only the serial tool writes a path
    have htype' : type' = .serial := by
      by_contra htype'
      have hwritten := mem_of_written hvalue'
      unfold writtenEntries at hwritten
      simp [htype'] at hwritten
    subst htype'
    exact Option.some.inj (hvalue'.symm.trans (hpath rfl hwords))
  · -- a serial tool that prints nothing removes the driver, unless another tool has a device of it
    have hnil := decidingTool_eq_none.mp hnone
    have hvalue : discoverWrite .serial driver (devNodeList runTool (.serial, driver)) e =
        some none := by
      rw [hnil _ htool rfl]
      exact discoverWrite_remove he
    refine apply_of_some (all_discoverWrites_eq_some htool hvalue ?_)
    rintro ⟨type', driver'⟩ htool' rfl value' hvalue'
    -- the other types write nothing for a driver without a device
    rw [hnil _ htool' rfl] at hvalue'
    by_cases htype' : type' = .serial
    · subst htype'
      rw [discoverWrite_remove he] at hvalue'
      exact (Option.some.inj hvalue').symm
    · rw [discoverWrite_of_ne_serial htype'] at hvalue'
      cases hvalue'
  · -- no tool writes the entry
    refine apply_of_none (all_eq_none_iff.mpr fun w hw => ?_)
    obtain ⟨tool, htool, rfl⟩ := List.mem_map.mp hw
    exact discoverWrite_eq_none (he tool htool)

/-- A tool with the type in front of its name is one of this driver. -/
theorem mem_discovered_of_link {deviceTypes : List DeviceType} {deviceType : DeviceType}
    {driver : String} (htype : deviceType ∈ deviceTypes) (hdriver : driver ≠ "")
    (hlink : deviceType.name ++ "-" ++ driver ∈ discoverList) :
    (deviceType, driver) ∈ discovered discoverList deviceTypes := by
  refine List.mem_flatMap.mpr ⟨deviceType, htype, List.mem_map.mpr ⟨driver, ?_, rfl⟩⟩
  have happend : (deviceType.name ++ "-" ++ driver).toList =
      (deviceType.name ++ "-").toList ++ driver.toList := String.toList_append
  have hprefix : (deviceType.name ++ "-").toList <+:
      (deviceType.name ++ "-" ++ driver).toList := happend ▸ List.prefix_append _ _
  refine List.mem_filter.mpr ⟨List.mem_map.mpr ⟨_, List.mem_filter.mpr ⟨hlink, ?_⟩, ?_⟩, ?_⟩
  · simpa using hprefix.isInfix
  · rw [if_pos hprefix, happend, List.drop_left, String.ofList_toList]
  · simpa using hdriver

/-- What the link of a community driver says: a word, unless libfprint has a list of devices and
none of this driver in it. -/
theorem devNodeList_link (devices : Option (List String)) {driver : String}
    (hdriver : driver ∈ communityDrivers)
    (htool : runTool .usb driver = (discoverMain devices ("usb-" ++ driver) []).1) :
    if ∃ list, devices = some list ∧ driver ∉ list then devNodeList runTool (.usb, driver) = ""
    else shellWords (devNodeList runTool (.usb, driver)) ≠ [] := by
  rw [devNodeList, htool]
  cases devices with
  | none =>
    have hwords : shellWords (commandSubstitution "Impossible to get devices") ≠ [] := by
      decide +kernel
    rw [if_neg (by rintro ⟨list, hlist, -⟩; cases hlist)]
    exact hwords
  | some list =>
    have hwords : ∀ driver ∈ communityDrivers,
        shellWords (commandSubstitution (driver ++ "\n")) ≠ [] := by decide +kernel
    rw [discoverMain_link _ hdriver]
    by_cases hmem : driver ∈ list
    · rw [if_neg (by simpa using hmem), if_pos hmem]
      exact hwords driver hdriver
    · rw [if_pos ⟨list, rfl, hmem⟩, if_neg hmem]
      rfl

/-- **Discovery of the community drivers.** A driver that has no tool of another type is enabled,
with its library, if libfprint reports a device of it; if it does not, the driver is left as it is,
enabled or not. Where libfprint has no list of devices all of them are enabled. -/
theorem discover_enables_reported (h : Reliable glib parse) (deviceType : Option DeviceType)
    (husb : .usb ∈ deviceTypeList deviceType) (devices : Option (List String))
    (hlinks : ∀ driver ∈ communityDrivers, "usb-" ++ driver ∈ discoverList)
    (htool : ∀ driver ∈ communityDrivers, runTool .usb driver =
      (discoverMain devices ("usb-" ++ driver) []).1)
    (hproper : ProperTools runTool discoverList (deviceTypeList deviceType) glib)
    (hloads : Loads glib file) (driver : String) (hdriver : driver ∈ communityDrivers)
    (honly : ∀ type, (type, driver) ∈ discovered discoverList (deviceTypeList deviceType) →
      type = .usb) :
    let c := glib.fileContents file
    let c' := glib.fileContents (discoverInto glib parse
      (biometricDeviceDiscover runTool discoverList (deviceTypeList deviceType)) file)
    ((∀ list, devices = some list → driver ∈ list) → c' (.group driver) = some "" ∧
      c' (.key driver "Enable") = some "true" ∧
      c' (.key driver "Driver") = some (driverPath driver)) ∧
    ((∃ list, devices = some list ∧ driver ∉ list) → ∀ e ∈ Entry.ofGroup driver, c' e = c e) := by
  rw [discoverInto_eq h hproper hloads]
  have hconfigured := @configured_apply runTool discoverList deviceType (glib.fileContents file)
  have hnames : ∀ driver ∈ communityDrivers, driver ≠ "" := by decide +kernel
  have hprints := devNodeList_link devices hdriver (htool driver hdriver)
  refine ⟨fun hreported => ?_, fun hnone e he => ?_⟩
  · -- libfprint reports a device of the driver, or has no list: its tool prints something
    have hmem := mem_discovered_of_link husb (hnames driver hdriver) (hlinks driver hdriver)
    rw [if_neg fun ⟨list, hlist, hnot⟩ => hnot (hreported list hlist)] at hprints
    have hne : devNodeList runTool (.usb, driver) ≠ "" := fun hnil => hprints (by rw [hnil]; rfl)
    obtain ⟨hgroup, hpath, henable⟩ :=
      hconfigured.attached driver _ (decidingTool_eq_some hmem hne honly)
    rw [if_neg hprints] at henable
    exact ⟨hgroup, henable, hpath⟩
  · -- it reports none: the tool prints nothing, and a tool that is not serial then writes nothing
    rw [if_pos hnone] at hprints
    refine hconfigured.frame e fun tool htool' hwritten => ?_
    obtain rfl := eq_of_mem_ofGroup (writtenEntries_subset hwritten) he
    have htype : tool.1 = .usb := honly tool.1 htool'
    rw [show tool = (.usb, tool.2) from Prod.ext htype rfl, hprints] at hwritten
    exact hwritten

end Run

/-! ### A run -/

/-- GLib on entries, with options of one letter. -/
theorem reliable_entryGLib : Reliable entryGLib shortOptions where
  lawful := entryGLib_lawful
  isKeyName_path := by decide
  getValue_setValue_self file g k value value' hget := by
    change (file.insert g k value).entry (.key g k) = some value' at hget
    unfold EntryFile.insert at hget
    split at hget
    · simp at hget
      exact .inl hget.symm
    · exact .inr hget
  getValue_removeKey_self file g k := by simp [entryGLib, EntryFile.erase]
  isPlain_enable _ := rfl
  plain_loadFromFile _ _ _ _ _ := rfl
  contents_toData file _ := entryGLib_savesExactly file
  load_toData _ _ := rfl
  -- the options are found by their letters, and what does not begin with a dash is left
  parse_short entries options args hsub hnodup hargs := by
    have harg : ∀ {arg : String} (entry : OptionEntry), arg.toList.head? ≠ some '-' →
        arg.toList ≠ ['-', entry.shortName] := by
      rintro arg entry hhead h
      exact hhead (by rw [h]; rfl)
    have hrest : shortOptions entries args = .ok ([], args) := by
      induction args with
      | nil => rfl
      | cons arg args ih =>
        obtain ⟨hhead, hargs⟩ := List.forall_mem_cons.mp hargs
        have hfind : entries.find? (fun entry => arg.toList = ['-', entry.shortName]) = none :=
          List.find?_eq_none.mpr fun entry _ => by simpa using harg entry hhead
        have ih := ih hargs
        rw [shortOptions] at ih
        rw [shortOptions, List.foldr_cons, ih]
        simp only [hfind, if_neg hhead]
        rfl
    induction options with
    | nil => exact hrest
    | cons option options ih =>
      obtain ⟨hoption, hsub⟩ := List.cons_subset.mp hsub
      have hfind : entries.find? (fun entry =>
          (String.ofList ['-', option.shortName]).toList = ['-', entry.shortName]) =
            some option := by
        cases hfind : entries.find? fun entry =>
            (String.ofList ['-', option.shortName]).toList = ['-', entry.shortName] with
        | none => simpa using List.find?_eq_none.mp hfind option hoption
        | some entry =>
          have hname : option.shortName = entry.shortName := by simpa using List.find?_some hfind
          exact congrArg some (List.inj_on_of_nodup_map hnodup (List.mem_of_find?_eq_some hfind)
            hoption hname.symm)
      have ih := ih hsub
      rw [shortOptions] at ih
      rw [shortOptions, List.map_cons, List.cons_append, List.foldr_cons, ih]
      simp only [hfind]
      rfl

/-- The tools of a serial driver and of three readers. -/
def installedTools : List String :=
  "extra" :: "serial-em1600" :: communityDrivers.map fun driver => "usb-" ++ driver

/-- What they print when libfprint has a URU 4000. -/
def attachedReader : DeviceType → String → String
  | .usb, driver => (discoverMain (some ["uru4000"]) ("usb-" ++ driver) []).1
  | .serial, _ | .pcie, _ => ""

/-- Two drivers, one of them without a device. -/
def twoDrivers : EntryText := entryGLib.toData
  ((EntryFile.empty.insert "em1600" "Path" "/dev/ttyS0").insert "aes2501" "Enable" "true")

theorem properTools_attachedReader :
    ProperTools attachedReader installedTools (deviceTypeList none) entryGLib := by
  unfold ProperTools
  decide +kernel

theorem links_installedTools : ∀ driver ∈ communityDrivers, "usb-" ++ driver ∈ installedTools := by
  decide +kernel

theorem loads_twoDrivers : Loads entryGLib (some twoDrivers) :=
  (loads_toData reliable_entryGLib fun _ _ _ _ => rfl).1

/-- A run that was killed after three calls, of which the second could not save, and one that could
not save at all. -/
theorem discover_recovers_reader :
    let calls := biometricDeviceDiscover attachedReader installedTools (deviceTypeList none)
    let file' := [[true, false, true], [false, false, false]].foldl
      (fun file saves => callTools entryGLib shortOptions (calls.zip saves) file) (some twoDrivers)
    entryGLib.fileContents (discoverInto entryGLib shortOptions calls file') =
      entryGLib.fileContents (discoverInto entryGLib shortOptions calls (some twoDrivers)) :=
  discover_recovers reliable_entryGLib properTools_attachedReader loads_twoDrivers
    [[true, false, true], [false, false, false]]

/-- The reader that is there is enabled; the one that is not was enabled before, and stays so. -/
theorem discover_enables_reader :
    let c' := entryGLib.fileContents (discoverInto entryGLib shortOptions
      (biometricDeviceDiscover attachedReader installedTools (deviceTypeList none))
        (some twoDrivers))
    c' (.key "uru4000" "Enable") = some "true" ∧ c' (.key "aes2501" "Enable") = some "true" := by
  have hdiscover := discover_enables_reported reliable_entryGLib none (by decide) (some ["uru4000"])
    links_installedTools (fun _ _ => rfl) properTools_attachedReader loads_twoDrivers
  have honly : ∀ tool ∈ discovered installedTools (deviceTypeList none),
      tool.2 = "aes2501" ∨ tool.2 = "uru4000" → tool.1 = .usb := by decide +kernel
  obtain ⟨hattached, -⟩ := hdiscover "uru4000" (by decide)
    fun type htool => honly _ htool (.inr rfl)
  obtain ⟨-, hframe⟩ := hdiscover "aes2501" (by decide)
    fun type htool => honly _ htool (.inl rfl)
  have hnone : "aes2501" ∉ ["uru4000"] := by decide
  refine ⟨(hattached fun list hlist => ?_).2.1, ?_⟩
  · obtain rfl := Option.some.inj hlist
    exact List.mem_cons_self
  · have hsame := hframe ⟨_, rfl, hnone⟩ (.key "aes2501" "Enable") (.inr ⟨_, rfl⟩)
    exact hsame.trans (by decide +kernel)

end BiometricAuth
