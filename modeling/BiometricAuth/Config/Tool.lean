import BiometricAuth.Config.GKeyFile
import BiometricAuth.Lib.Footprint

/-!
# The configuration tool

`biometric-config-tool` loads the configuration of the drivers, changes it as its command says and
saves it. Every command names some entries and leaves the others as they are
(`ConfigCommand.fn_spec`). But `main` does not look at what `config_init` returns: after a load that
has failed a command runs on what was parsed, and what was not parsed is gone with the save.

Main result: `losesNothing_iff`.
-/

namespace BiometricAuth

open Footprint

/-! ### The command line -/

/-- The variables that the options set. -/
inductive Flag
  | forceOverride | driverDisable | driverIgnore | ignoreExist
deriving DecidableEq

/-- A `GOptionEntry`. -/
structure OptionEntry where
  longName : String
  shortName : Char
  flag : Flag

/-- `commands`. -/
inductive ConfigCommand
  | addDriver | removeDriver | enableDriver | disableDriver | setKey | removeKey

/-- The name of a command. -/
def ConfigCommand.name : ConfigCommand → String
  | addDriver => "add-driver"
  | removeDriver => "remove-driver"
  | enableDriver => "enable-driver"
  | disableDriver => "disable-driver"
  | setKey => "set-key"
  | removeKey => "remove-key"

/-- The options of a command. -/
def ConfigCommand.entries : ConfigCommand → List OptionEntry
  | addDriver => [⟨"force", 'f', .forceOverride⟩, ⟨"disable", 'd', .driverDisable⟩]
  | removeDriver | enableDriver | disableDriver | removeKey => [⟨"ignore", 'i', .driverIgnore⟩]
  | setKey => [⟨"force", 'f', .forceOverride⟩, ⟨"ignore", 'i', .ignoreExist⟩]

/-- The table that `extract_command` looks the name up in. -/
def commands : List ConfigCommand :=
  [.addDriver, .removeDriver, .enableDriver, .disableDriver, .setKey, .removeKey]

/-- `extract_command`: the first argument that does not begin with `-` is taken out. -/
def extractCommand : List String → Option String × List String
  | [] => (none, [])
  | arg :: argv =>
    if arg.toList.head? = some '-' then
      let (commandName, argv) := extractCommand argv
      (commandName, arg :: argv)
    else
      (some arg, argv)

/-- `global_entries`. -/
def globalEntries : List OptionEntry := []

/-- `g_option_context_parse`: the variables that are set and the arguments that remain, or the
status with which the tool exits, `0` after `--help` and `1` after an error. -/
abbrev OptionParser := List OptionEntry → List String → Except ℤ (List Flag × List String)

/-- The command of an invocation with its options and arguments, without the name of the program. -/
def invocation (parse : OptionParser) (argv : List String) :
    Except ℤ (ConfigCommand × List Flag × List String) :=
  let (commandName, argv) := extractCommand argv
  match commands.find? fun command => commandName = some command.name with
  | none =>
    -- without a command the options are parsed all the same
    if commandName = none then (parse globalEntries argv).bind fun _ => .error 1 else .error 1
  | some command => do
    let (flags, argv) ← parse command.entries argv
    return (command, flags, argv)

/-! ### The commands -/

section Commands

variable {κ φ : Type} (glib : GKeyFile κ φ) (flags : List Flag) (argv : List String)
  (bioConfigFile : κ)

/- A command exits, or returns, and has saved a key file before or not. -/

/-- `biometric_config_add_driver`. -/
def biometricConfigAddDriver : Except ℤ (Option κ) :=
  match argv with
  | [driverName, driverPath] =>
    if glib.hasGroup bioConfigFile driverName = true ∧ .forceOverride ∉ flags then
      .error 1
    else
      let bioConfigFile :=
        glib.setBoolean bioConfigFile driverName "Enable" (.driverDisable ∉ flags)
      .ok (some (glib.setValue bioConfigFile driverName "Driver" driverPath))
  | _ => .error 1

/-- The commands for several drivers: all of them have to be there, unless they are ignored. -/
def forDrivers (update : κ → String → κ) : Except ℤ (Option κ) :=
  if argv.length < 1 then
    .error 1
  else if ∃ driver ∈ argv, glib.hasGroup bioConfigFile driver = false ∧ .driverIgnore ∉ flags then
    .error 1
  else
    .ok (some (argv.foldl update bioConfigFile))

/-- `biometric_config_remove_driver`. -/
def biometricConfigRemoveDriver : Except ℤ (Option κ) :=
  forDrivers glib flags argv bioConfigFile glib.removeGroup

/-- The loop of the next two. -/
def setEnable (enable : Bool) (bioConfigFile : κ) (driver : String) : κ :=
  if glib.hasGroup bioConfigFile driver then
    glib.setBoolean bioConfigFile driver "Enable" enable
  else
    bioConfigFile

/-- `biometric_config_enable_driver`. -/
def biometricConfigEnableDriver : Except ℤ (Option κ) :=
  forDrivers glib flags argv bioConfigFile (setEnable glib true)

/-- `biometric_config_disable_driver`. -/
def biometricConfigDisableDriver : Except ℤ (Option κ) :=
  forDrivers glib flags argv bioConfigFile (setEnable glib false)

/-- `biometric_config_set_key`. -/
def biometricConfigSetKey : Except ℤ (Option κ) :=
  match argv with
  | [driverName, key, value] =>
    if glib.hasGroup bioConfigFile driverName = false then
      .error 1
    else if glib.hasKey bioConfigFile driverName key = true ∧ .ignoreExist ∈ flags then
      .ok none
    else if glib.hasKey bioConfigFile driverName key = true ∧ .forceOverride ∉ flags then
      .error 1
    else
      .ok (some (glib.setValue bioConfigFile driverName key value))
  | _ => .error 1

/-- `biometric_config_remove_key`. -/
def biometricConfigRemoveKey : Except ℤ (Option κ) :=
  match argv with
  | [driverName, key] =>
    if glib.hasGroup bioConfigFile driverName = false ∧ .driverIgnore ∉ flags then
      .error 1
    else
      .ok (some (glib.removeKey bioConfigFile driverName key))
  | _ => .error 1

/-- The function of a command. -/
def ConfigCommand.fn : ConfigCommand → Except ℤ (Option κ)
  | addDriver => biometricConfigAddDriver glib flags argv bioConfigFile
  | removeDriver => biometricConfigRemoveDriver glib flags argv bioConfigFile
  | enableDriver => biometricConfigEnableDriver glib flags argv bioConfigFile
  | disableDriver => biometricConfigDisableDriver glib flags argv bioConfigFile
  | setKey => biometricConfigSetKey glib flags argv bioConfigFile
  | removeKey => biometricConfigRemoveKey glib flags argv bioConfigFile

/-! ### The tool -/

/-- `config_init`: the key file, and what is returned. -/
def configInit (file : Option φ) : κ × ℤ :=
  match glib.loadFromFile file with
  | (bioConfigFile, none) => (bioConfigFile, 0)
  | (bioConfigFile, some err) => (bioConfigFile, if err.code = 4 then 0 else -1)

/-- `biometric_config_run`. -/
def biometricConfigRun (parse : OptionParser) : Except ℤ (Option κ) := do
  let (command, flags, argv) ← invocation parse argv
  command.fn glib flags argv bioConfigFile

/-- The file and the status of the tool at its end. -/
structure ToolExit (φ : Type) where
  file : Option φ
  status : ℤ

/-- `main`. A save that fails leaves the file as it was. -/
def configTool (parse : OptionParser) (canSave : Bool) (file : Option φ) : ToolExit φ :=
  let (bioConfigFile, _) := configInit glib file
  match biometricConfigRun glib argv bioConfigFile parse with
  | .error status => ⟨file, status⟩
  | .ok none => ⟨file, 0⟩
  | .ok (some saved) => if canSave then ⟨some (glib.toData saved), 0⟩ else ⟨file, 1⟩

end Commands

/-! ### What a command is for -/

/-- The entries that a command names. -/
def ConfigCommand.names : ConfigCommand → List String → Set Entry
  | addDriver, [driverName, _] => {.key driverName "Enable", .key driverName "Driver"}
  | removeDriver, drivers => {e | ∃ driver ∈ drivers, e ∈ Entry.ofGroup driver}
  | enableDriver, drivers | disableDriver, drivers =>
    {e | ∃ driver ∈ drivers, e ∈ ({.key driver "Enable"} : Set Entry)}
  | setKey, [driverName, key, _] | removeKey, [driverName, key] => {.key driverName key}
  | _, _ => ∅

/-- The group that a command creates if it is not there. -/
def ConfigCommand.creates : ConfigCommand → List String → Set Entry
  | addDriver, [driverName, _] => {.group driverName}
  | _, _ => ∅

/-- The change that a command for several drivers makes for each of them. -/
def ConfigCommand.Changed (driver : String) (c : Contents) : ConfigCommand → Prop
  | removeDriver => ∀ e ∈ Entry.ofGroup driver, c e = none
  | enableDriver => c (.key driver "Enable") = some "true"
  | disableDriver => c (.key driver "Enable") = some "false"
  | addDriver | setKey | removeKey => True

section Accepts

variable {κ φ : Type} (glib : GKeyFile κ φ) (flags : List Flag) (keyFile : κ)

/-- A command gets as far as to save: the number of its arguments is right, and its checks of the
key file pass. -/
def ConfigCommand.Accepts : ConfigCommand → List String → Prop
  | addDriver, [driverName, _] => glib.hasGroup keyFile driverName = true → .forceOverride ∈ flags
  | removeDriver, drivers | enableDriver, drivers | disableDriver, drivers =>
    drivers ≠ [] ∧ ∀ driver ∈ drivers, glib.hasGroup keyFile driver = true ∨ .driverIgnore ∈ flags
  | setKey, [driverName, key, _] => glib.hasGroup keyFile driverName = true ∧
    (glib.hasKey keyFile driverName key = true → .ignoreExist ∉ flags ∧ .forceOverride ∈ flags)
  | removeKey, [driverName, _] =>
    glib.hasGroup keyFile driverName = true ∨ .driverIgnore ∈ flags
  | _, _ => False

end Accepts

/-! ### What a command does -/

section Spec

variable {κ φ : Type} {glib : GKeyFile κ φ} {flags : List Flag} {argv : List String}
  {keyFile saved : κ} {file : Option φ} (hglib : glib.Lawful)

/-- What a command saves, `saved`, when it began with `keyFile`. -/
structure ConfigCommand.Does (glib : GKeyFile κ φ) (flags : List Flag) (argv : List String)
    (keyFile saved : κ) (command : ConfigCommand) : Prop where
  /-- What it does not name stays as it is. -/
  frame : Set.EqOn (glib.entry saved) (glib.entry keyFile)
    (command.names argv ∪ command.creates argv)ᶜ
  /-- What it creates is there. -/
  creates : ∀ e ∈ command.creates argv, ∀ text value, glib.contents text e = some value →
    glib.entry saved e = some value
  /-- Its change is made for every driver. -/
  changed : .driverIgnore ∉ flags → ∀ driver ∈ argv, command.Changed driver (glib.entry saved)

/-- The commands for several drivers save if they accept. -/
theorem forDrivers_eq_some {update : κ → String → κ} :
    forDrivers glib flags argv keyFile update = .ok (some saved) ↔
      (argv ≠ [] ∧ ∀ driver ∈ argv, glib.hasGroup keyFile driver = true ∨ .driverIgnore ∈ flags) ∧
        saved = argv.foldl update keyFile := by
  have hchecks : (∃ driver ∈ argv, glib.hasGroup keyFile driver = false ∧
      Flag.driverIgnore ∉ flags) ↔
      ¬ ∀ driver ∈ argv, glib.hasGroup keyFile driver = true ∨ .driverIgnore ∈ flags := by
    push Not
    simp only [Bool.not_eq_true]
  have hlength : argv.length < 1 ↔ argv = [] := by
    rw [Nat.lt_one_iff, List.length_eq_zero_iff]
  simp only [forDrivers, hchecks, hlength]
  split
  next hnone => simp [hnone]
  next hne =>
    split
    next hcheck => exact iff_of_false (fun h => nomatch h) fun h => hcheck h.1.2
    next hcheck =>
      rw [not_not] at hcheck
      simp only [Except.ok.injEq, Option.some.injEq]
      exact ⟨fun h => ⟨⟨hne, hcheck⟩, h.symm⟩, fun h => h.2.symm⟩

theorem biometricConfigAddDriver_eq_some :
    biometricConfigAddDriver glib flags argv keyFile = .ok (some saved) ↔
      ∃ driverName driverPath, argv = [driverName, driverPath] ∧
        (glib.hasGroup keyFile driverName = true → .forceOverride ∈ flags) ∧
        saved = glib.setValue
          (glib.setBoolean keyFile driverName "Enable" (Flag.driverDisable ∉ flags)) driverName
          "Driver" driverPath := by
  unfold biometricConfigAddDriver
  split
  next driverName driverPath =>
    split
    next hcheck =>
      refine iff_of_false (fun h => nomatch h) ?_
      rintro ⟨_, _, hargv, hforce, -⟩
      cases hargv
      exact hcheck.2 (hforce hcheck.1)
    next hcheck =>
      simp only [Except.ok.injEq, Option.some.injEq]
      constructor
      · rintro rfl
        exact ⟨_, _, rfl, fun h => not_not.mp fun hflag => hcheck ⟨h, hflag⟩, rfl⟩
      · rintro ⟨_, _, hargv, -, rfl⟩
        cases hargv
        rfl
  next hargv =>
    refine iff_of_false (fun h => nomatch h) ?_
    rintro ⟨driverName, driverPath, h, -⟩
    exact hargv _ _ h

theorem biometricConfigSetKey_eq_some :
    biometricConfigSetKey glib flags argv keyFile = .ok (some saved) ↔
      ∃ driverName key value, argv = [driverName, key, value] ∧
        glib.hasGroup keyFile driverName = true ∧
        (glib.hasKey keyFile driverName key = true → .ignoreExist ∉ flags ∧
          .forceOverride ∈ flags) ∧
        saved = glib.setValue keyFile driverName key value := by
  unfold biometricConfigSetKey
  split
  next driverName key value =>
    -- a call that the checks let not through saves nothing
    have hexits : ∀ {r : Except ℤ (Option κ)}, r ≠ .ok (some saved) →
        ¬ (glib.hasGroup keyFile driverName = true ∧
          (glib.hasKey keyFile driverName key = true → .ignoreExist ∉ flags ∧
            .forceOverride ∈ flags)) →
        (r = .ok (some saved) ↔ ∃ driverName' key' value',
          [driverName, key, value] = [driverName', key', value'] ∧
          glib.hasGroup keyFile driverName' = true ∧
          (glib.hasKey keyFile driverName' key' = true → .ignoreExist ∉ flags ∧
            .forceOverride ∈ flags) ∧
          saved = glib.setValue keyFile driverName' key' value') := by
      intro r hr hcheck
      refine iff_of_false hr ?_
      rintro ⟨_, _, _, hargv, hgroup, hkey, -⟩
      cases hargv
      exact hcheck ⟨hgroup, hkey⟩
    -- the checks one after the other, as the function makes them
    split
    next hgroup => exact hexits (fun h => nomatch h) fun h => by simp [hgroup] at h
    next hgroup =>
      split
      next hignore => exact hexits (fun h => nomatch h) fun h => (h.2 hignore.1).1 hignore.2
      next hignore =>
        split
        next hforce => exact hexits (fun h => nomatch h) fun h => hforce.2 (h.2 hforce.1).2
        next hforce =>
          -- all are passed: the value is set
          simp only [Except.ok.injEq, Option.some.injEq]
          constructor
          · rintro rfl
            refine ⟨_, _, _, rfl, by simpa using hgroup, fun hkey => ⟨?_, ?_⟩, rfl⟩
            · exact fun h => hignore ⟨hkey, h⟩
            · exact not_not.mp fun h => hforce ⟨hkey, h⟩
          · rintro ⟨_, _, _, hargv, -, -, rfl⟩
            cases hargv
            rfl
  next hargv =>
    refine iff_of_false (fun h => nomatch h) ?_
    rintro ⟨driverName, key, value, h, -⟩
    exact hargv _ _ _ h

theorem biometricConfigRemoveKey_eq_some :
    biometricConfigRemoveKey glib flags argv keyFile = .ok (some saved) ↔
      ∃ driverName key, argv = [driverName, key] ∧
        (glib.hasGroup keyFile driverName = true ∨ .driverIgnore ∈ flags) ∧
        saved = glib.removeKey keyFile driverName key := by
  unfold biometricConfigRemoveKey
  split
  next driverName key =>
    split
    next hcheck =>
      refine iff_of_false (fun h => nomatch h) ?_
      rintro ⟨_, _, hargv, haccepts, -⟩
      cases hargv
      exact haccepts.elim (fun h => by simp [hcheck.1] at h) hcheck.2
    next hcheck =>
      simp only [Except.ok.injEq, Option.some.injEq]
      constructor
      · rintro rfl
        refine ⟨_, _, rfl, ?_, rfl⟩
        by_contra hnone
        rw [not_or, Bool.not_eq_true] at hnone
        exact hcheck hnone
      · rintro ⟨_, _, hargv, -, rfl⟩
        cases hargv
        rfl
  next hargv =>
    refine iff_of_false (fun h => nomatch h) ?_
    rintro ⟨driverName, key, h, -⟩
    exact hargv _ _ h

/-- A command saves exactly if it accepts. -/
theorem ConfigCommand.exists_fn_iff (command : ConfigCommand) :
    (∃ saved, command.fn glib flags argv keyFile = .ok (some saved)) ↔
      command.Accepts glib flags keyFile argv := by
  -- each command saves where its function gets to the end, which is what it accepts
  cases command with
  | addDriver =>
    simp only [fn, biometricConfigAddDriver_eq_some]
    constructor
    · rintro ⟨_, _, _, rfl, h, -⟩
      exact h
    · intro h
      unfold Accepts at h
      split at h <;> simp_all
  | removeDriver | enableDriver | disableDriver =>
    simp only [fn, biometricConfigRemoveDriver, biometricConfigEnableDriver,
      biometricConfigDisableDriver, forDrivers_eq_some, Accepts]
    exact ⟨fun ⟨_, h, _⟩ => h, fun h => ⟨_, h, rfl⟩⟩
  | setKey =>
    simp only [fn, biometricConfigSetKey_eq_some]
    constructor
    · rintro ⟨_, _, _, _, rfl, hgroup, hkey, -⟩
      exact ⟨hgroup, hkey⟩
    · intro h
      unfold Accepts at h
      split at h <;> simp_all
  | removeKey =>
    simp only [fn, biometricConfigRemoveKey_eq_some]
    constructor
    · rintro ⟨_, _, _, rfl, h, -⟩
      exact h
    · intro h
      unfold Accepts at h
      split at h <;> simp_all

include hglib

/-- A group that is removed is not there any more. -/
theorem entry_removeGroup_self (keyFile : κ) (driver : String) :
    ∀ e ∈ Entry.ofGroup driver, glib.entry (glib.removeGroup keyFile driver) e = none := by
  rintro e (rfl | ⟨k, rfl⟩)
  · simp [GKeyFile.entry, hglib.hasGroup_removeGroup]
  · simp [GKeyFile.entry, hglib.getValue_removeGroup]

/-- The value that is set. -/
theorem entry_setBoolean_self (value : Bool) {driver : String}
    (hgroup : glib.hasGroup keyFile driver = true) :
    glib.entry (glib.setBoolean keyFile driver "Enable" value) (.key driver "Enable") =
      some (if value then "true" else "false") :=
  (hglib.setValue_self _ _ _ _ (hglib.isGroupName_of_hasGroup _ _ hgroup)
    hglib.isKeyName_enable).2

/-- Enabling or disabling a driver changes this key of it. -/
theorem entry_setEnable (enable : Bool) (keyFile : κ) (driver : String) :
    Set.EqOn (glib.entry (setEnable glib enable keyFile driver)) (glib.entry keyFile)
      {.key driver "Enable"}ᶜ := by
  unfold setEnable
  split
  next hgroup => exact hglib.entry_setValue_of_hasGroup _ _ _ _ hgroup
  · exact Set.eqOn_refl _ _

/-- The groups stay. -/
theorem hasGroup_setEnable (enable : Bool) (keyFile : κ) (driver g : String) :
    glib.hasGroup (setEnable glib enable keyFile driver) g = glib.hasGroup keyFile g := by
  have hentry := entry_setEnable hglib enable keyFile driver (x := .group g) (by simp)
  simp only [GKeyFile.entry] at hentry
  cases hg : glib.hasGroup keyFile g <;>
    cases hg' : glib.hasGroup (setEnable glib enable keyFile driver) g <;>
      simp [hg, hg'] at hentry ⊢

/-- Every driver that is there is enabled, or disabled. -/
theorem changed_setEnable (enable : Bool)
    (hgroups : ∀ driver ∈ argv, glib.hasGroup keyFile driver = true) :
    ∀ driver ∈ argv, glib.entry (argv.foldl (setEnable glib enable) keyFile)
      (.key driver "Enable") = some (if enable then "true" else "false") := by
  refine foldl_done (P := fun keyFile => ∀ driver ∈ argv, glib.hasGroup keyFile driver = true)
    (Q := fun driver keyFile => glib.entry keyFile (.key driver "Enable") =
      some (if enable then "true" else "false"))
    (fun keyFile driver _ h d hd => ?_) (fun keyFile driver hdriver h => ?_)
    (fun keyFile d d' _ h => ?_) hgroups
  · rw [hasGroup_setEnable hglib]
    exact h d hd
  · rw [setEnable, if_pos (h driver hdriver)]
    exact entry_setBoolean_self hglib enable (h driver hdriver)
  · by_cases hsame : d = d'
    · subst hsame
      -- a driver that is named twice
      unfold setEnable
      split
      next hgroup => exact entry_setBoolean_self hglib enable hgroup
      · exact h
    · rw [entry_setEnable hglib enable keyFile d' (by simp [hsame])]
      exact h

/-- **Spec lemma.** A command does what it is for, and nothing else. -/
theorem ConfigCommand.fn_spec {command : ConfigCommand}
    (h : command.fn glib flags argv keyFile = .ok (some saved)) :
    command.Does glib flags argv keyFile saved := by
  -- what a command names or creates changes as it says, and every other entry stays
  cases command with
  | addDriver =>
    -- add: a group with the two keys
    obtain ⟨driverName, driverPath, rfl, -, rfl⟩ := biometricConfigAddDriver_eq_some.mp h
    obtain ⟨enabled, henabled⟩ : ∃ enabled, enabled =
        glib.setBoolean keyFile driverName "Enable" (Flag.driverDisable ∉ flags) := ⟨_, rfl⟩
    rw [← henabled]
    refine ⟨?_, ?_, fun _ _ _ => trivial⟩
    · have hsub : ∀ key, key = "Enable" ∨ key = "Driver" →
          (names .addDriver [driverName, driverPath] ∪
            creates .addDriver [driverName, driverPath])ᶜ ⊆
            ({.group driverName, .key driverName key} : Set Entry)ᶜ := by
        rintro key hkey
        -- each of the two settings keeps all entries but the group and its own key
        refine Set.compl_subset_compl.mpr ?_
        rcases hkey with rfl | rfl <;> rintro e (rfl | rfl) <;> simp [names, creates]
      intro e he
      calc glib.entry (glib.setValue enabled driverName "Driver" driverPath) e
        _ = glib.entry enabled e := hglib.entry_setValue _ _ _ _ (hsub _ (.inr rfl) he)
        _ = glib.entry keyFile e := henabled ▸ hglib.entry_setValue _ _ _ _ (hsub _ (.inl rfl) he)
    · -- the group has no text in front of it
      rintro e rfl text value hvalue
      obtain ⟨hname, rfl⟩ := hglib.isGroupName_of_contents _ _ _ hvalue
      rw [GKeyFile.entry, (hglib.setValue_self _ _ _ _ hname hglib.isKeyName_driver).1, if_pos rfl]
  | removeDriver =>
    -- remove: the groups of the drivers go, one after the other
    obtain ⟨⟨-, haccepts⟩, rfl⟩ := forDrivers_eq_some.mp h
    refine ⟨?_, fun e he => absurd he (Set.notMem_empty e), fun _ => ?_⟩
    · simpa [names, creates] using
        foldl_eqOn (fun keyFile driver => hglib.entry_removeGroup keyFile driver) argv keyFile
    · refine foldl_done (P := fun _ => True)
        (Q := fun driver keyFile => ∀ e ∈ Entry.ofGroup driver, glib.entry keyFile e = none)
        (fun _ _ _ _ => trivial)
        (fun keyFile driver _ _ => entry_removeGroup_self hglib keyFile driver)
        (fun keyFile d d' _ h e he => ?_) trivial
      by_cases hd' : e ∈ Entry.ofGroup d'
      · exact entry_removeGroup_self hglib keyFile d' e hd'
      · rw [hglib.entry_removeGroup keyFile d' hd']
        exact h e he
  | enableDriver =>
    -- enable: the key of each driver is set
    obtain ⟨⟨-, haccepts⟩, rfl⟩ := forDrivers_eq_some.mp h
    refine ⟨?_, fun e he => absurd he (Set.notMem_empty e), fun hflag => ?_⟩
    · simpa [names, creates] using
        foldl_eqOn (fun keyFile driver => entry_setEnable hglib true keyFile driver) argv keyFile
    · exact changed_setEnable hglib true fun driver hdriver =>
        (haccepts driver hdriver).resolve_right hflag
  | disableDriver =>
    obtain ⟨⟨-, haccepts⟩, rfl⟩ := forDrivers_eq_some.mp h
    refine ⟨?_, fun e he => absurd he (Set.notMem_empty e), fun hflag => ?_⟩
    · simpa [names, creates] using
        foldl_eqOn (fun keyFile driver => entry_setEnable hglib false keyFile driver) argv keyFile
    · exact changed_setEnable hglib false fun driver hdriver =>
        (haccepts driver hdriver).resolve_right hflag
  | setKey =>
    obtain ⟨driverName, key, value, rfl, hgroup, -, rfl⟩ := biometricConfigSetKey_eq_some.mp h
    refine ⟨?_, fun e he => absurd he (Set.notMem_empty e), fun _ _ _ => trivial⟩
    simpa [names, creates] using
      hglib.entry_setValue_of_hasGroup keyFile driverName key value hgroup
  | removeKey =>
    obtain ⟨driverName, key, rfl, -, rfl⟩ := biometricConfigRemoveKey_eq_some.mp h
    refine ⟨?_, fun e he => absurd he (Set.notMem_empty e), fun _ _ _ => trivial⟩
    simpa [names, creates] using hglib.entry_removeKey keyFile driverName key

end Spec

/-! ### What the tool loses -/

section Loses

variable {κ φ : Type} {glib : GKeyFile κ φ} {parse : OptionParser} {argv : List String}
  {canSave : Bool} {file : Option φ}

/-- What the file says; one that is not there says nothing. -/
def GKeyFile.fileContents (glib : GKeyFile κ φ) : Option φ → Contents
  | some text => glib.contents text
  | none => fun _ => none

/-- The tool leaves the file as it was, or the file still says what it said but for what the command
names, and a command for several drivers has changed all of them. -/
def LosesNothing (glib : GKeyFile κ φ) (parse : OptionParser) (argv : List String) (canSave : Bool)
    (file : Option φ) : Prop :=
  let file' := (configTool glib argv parse canSave file).file
  file' = file ∨ ∃ command flags args, invocation parse argv = .ok (command, flags, args) ∧
    Keeps (command.names args) (glib.fileContents file) (glib.fileContents file') ∧
    (.driverIgnore ∉ flags → ∀ driver ∈ args, command.Changed driver (glib.fileContents file'))

/-- What the file says was loaded, but for what the command names or creates. -/
def LoadKeeps (glib : GKeyFile κ φ) (command : ConfigCommand) (args : List String)
    (file : Option φ) : Prop :=
  Keeps (command.names args ∪ command.creates args) (glib.fileContents file)
    (glib.entry (configInit glib file).1)

theorem configTool_file_of_saved (glib : GKeyFile κ φ) {parse : OptionParser} {argv : List String}
    (canSave : Bool) {file : Option φ} {saved : κ}
    (h : biometricConfigRun glib argv (configInit glib file).1 parse = .ok (some saved)) :
    (configTool glib argv parse canSave file).file =
      if canSave then some (glib.toData saved) else file := by
  unfold configTool
  simp only [h]
  exact apply_ite ToolExit.file _ _ _

theorem configTool_file_of_not_saved (glib : GKeyFile κ φ) {parse : OptionParser}
    {argv : List String} (canSave : Bool) {file : Option φ}
    (h : ∀ saved, biometricConfigRun glib argv (configInit glib file).1 parse ≠ .ok (some saved)) :
    (configTool glib argv parse canSave file).file = file := by
  unfold configTool
  cases hrun : biometricConfigRun glib argv (configInit glib file).1 parse with
  | error status => simp only [hrun]
  | ok saved =>
    cases saved with
    | none => simp only [hrun]
    | some saved => exact absurd hrun (h saved)

/-- What becomes of the file. -/
theorem configTool_file_cases (glib : GKeyFile κ φ) (parse : OptionParser) (argv : List String)
    (canSave : Bool) (file : Option φ) :
    (∃ command flags args saved, invocation parse argv = .ok (command, flags, args) ∧
        command.fn glib flags args (configInit glib file).1 = .ok (some saved) ∧ canSave = true ∧
        (configTool glib argv parse canSave file).file = some (glib.toData saved)) ∨
      (∀ command flags args, invocation parse argv = .ok (command, flags, args) → canSave = true →
        ¬ command.Accepts glib flags (configInit glib file).1 args) ∧
        (configTool glib argv parse canSave file).file = file := by
  have hrun : ∀ command flags args, invocation parse argv = .ok (command, flags, args) →
      biometricConfigRun glib argv (configInit glib file).1 parse =
        command.fn glib flags args (configInit glib file).1 := by
    intro command flags args h
    rw [biometricConfigRun, h]
    rfl
  cases hinvocation : invocation parse argv with
  | error status =>
    -- the options are not understood, or there is no command
    refine .inr ⟨fun _ _ _ h => ?_, configTool_file_of_not_saved glib canSave fun saved h => ?_⟩
    · cases h
    · rw [biometricConfigRun, hinvocation] at h
      cases h
  | ok call =>
    obtain ⟨command, flags, args⟩ := call
    have hrun := hrun command flags args hinvocation
    -- the command gets to the end of its function, or it exits before
    by_cases hsaves : ∃ saved,
        command.fn glib flags args (configInit glib file).1 = .ok (some saved)
    · obtain ⟨saved, hfn⟩ := hsaves
      have hfile := configTool_file_of_saved glib canSave (hrun.trans hfn)
      cases canSave with
      | false =>
        refine .inr ⟨fun _ _ _ _ h => ?_, hfile⟩
        cases h
      | true => exact .inl ⟨command, flags, args, saved, rfl, hfn, rfl, hfile⟩
    · refine .inr ⟨?_, configTool_file_of_not_saved glib canSave fun saved h => ?_⟩
      · rintro _ _ _ ⟨⟩ - h
        exact hsaves (command.exists_fn_iff.mpr h)
      · exact hsaves ⟨saved, hrun.symm.trans h⟩

/-- A command that saves keeps what was loaded, and no more. -/
theorem keeps_saved_iff (hglib : glib.Lawful) {command : ConfigCommand} {flags : List Flag}
    {args : List String} {saved : κ}
    (h : command.fn glib flags args (configInit glib file).1 = .ok (some saved)) :
    Keeps (command.names args) (glib.fileContents file) (glib.entry saved) ↔
      LoadKeeps glib command args file := by
  have hdoes := ConfigCommand.fn_spec hglib h
  have hcreates : ∀ e ∈ command.creates args, ∀ value, glib.fileContents file e = some value →
      glib.entry saved e = some value := by
    intro e he value hvalue
    cases file with
    | none => cases hvalue
    | some text => exact hdoes.creates e he text value hvalue
  rw [← keeps_union_iff hcreates]
  exact keeps_congr hdoes.frame

/-- Where key files are saved exactly, the tool loses nothing exactly if a command that comes to
save finds in memory whatever the file says, but for what it names or creates. -/
theorem losesNothing_iff (hglib : glib.Lawful) (hsaves : glib.SavesExactly) (parse : OptionParser)
    (argv : List String) (canSave : Bool) (file : Option φ) :
    LosesNothing glib parse argv canSave file ↔
      ∀ command flags args, invocation parse argv = .ok (command, flags, args) →
        canSave = true → command.Accepts glib flags (configInit glib file).1 args →
          LoadKeeps glib command args file := by
  rcases configTool_file_cases glib parse argv canSave file with
    ⟨command, flags, args, saved, hinvocation, hfn, hcan, hfile⟩ | ⟨hnone, hfile⟩
  · -- a command has come to save: the file says what it has in memory
    have haccepts : command.Accepts glib flags (configInit glib file).1 args :=
      command.exists_fn_iff.mp ⟨saved, hfn⟩
    have hcontents : glib.fileContents (configTool glib argv parse canSave file).file =
        glib.entry saved := by
      rw [hfile]
      exact hsaves saved
    constructor
    · intro hloses command' flags' args' hinvocation' _ _
      obtain ⟨rfl, rfl, rfl⟩ : command = command' ∧ flags = flags' ∧ args = args' := by
        simpa using hinvocation.symm.trans hinvocation'
      rw [← keeps_saved_iff hglib hfn, ← hcontents]
      rcases hloses with hsame | ⟨command', flags', args', hinvocation', hkeeps, -⟩
      · -- the text that was saved is the one that was there
        rw [hsame]
        exact Keeps.refl _ _
      · obtain ⟨rfl, rfl, rfl⟩ : command = command' ∧ flags = flags' ∧ args = args' := by
          simpa using hinvocation.symm.trans hinvocation'
        exact hkeeps
    · -- in memory is all that the file says, and the command keeps it
      intro hload
      refine .inr ⟨command, flags, args, hinvocation, ?_, ?_⟩
      · rw [hcontents, keeps_saved_iff hglib hfn]
        exact hload command flags args hinvocation hcan haccepts
      · rw [hcontents]
        exact (ConfigCommand.fn_spec hglib hfn).changed
  · -- nothing was saved, and no command accepts
    refine iff_of_true (.inl hfile) fun command flags args hinvocation hcan haccepts => ?_
    exact absurd haccepts (hnone command flags args hinvocation hcan)

end Loses

/-! ### A file that cannot be parsed -/

/-- `g_key_file_is_group_name`. -/
def isGroupName (name : String) : Bool :=
  name ≠ "" && name.toList.all fun c => c ≠ '[' && c ≠ ']' && 32 ≤ c.toNat && c.toNat ≠ 127

/-- The names of keys, of which none has an `=`. -/
def isKeyName (name : String) : Bool := isGroupName name && !name.toList.contains '='

/-- A key file as the entries it holds. -/
structure EntryFile where
  entry : Contents
  proper : ∀ g value, entry (.group g) = some value → isGroupName g = true ∧ value = ""

namespace EntryFile

/-- Without entries. -/
def empty : EntryFile := ⟨fun _ => none, fun _ _ h => nomatch h⟩

/-- With a group and a key of it. -/
def insert (file : EntryFile) (groupName key value : String) : EntryFile :=
  if hname : isGroupName groupName = true ∧ isKeyName key = true then
    { entry := Function.update (Function.update file.entry (.group groupName) (some ""))
        (.key groupName key) (some value)
      proper := by
        intro g value' h
        by_cases hg : g = groupName
        · subst hg
          exact ⟨hname.1, by simpa [Function.update_apply] using h.symm⟩
        · exact file.proper g value' (by simpa [Function.update_apply, hg] using h) }
  else
    file

/-- Without some of its entries. -/
def erase (file : EntryFile) (S : Entry → Bool) : EntryFile where
  entry e := if S e then none else file.entry e
  proper g value h := file.proper g value (Option.ite_none_left_eq_some.mp h).2

end EntryFile

/-- The entries of a text up to a line that cannot be parsed, if there is one, and those behind. -/
structure EntryText where
  parsed : EntryFile
  behind : Option EntryFile

/-- GLib on these texts. -/
def entryGLib : GKeyFile EntryFile EntryText where
  loadFromFile
    | some text => (text.parsed, text.behind.map fun _ => ⟨1⟩)
    | none => (.empty, some ⟨4⟩)
  hasGroup file g := (file.entry (.group g)).isSome
  getValue file g k := file.entry (.key g k)
  setValue file g k value := file.insert g k value
  removeGroup file g := file.erase fun
    | .group name => name = g
    | .key name _ => name = g
  removeKey file g k := file.erase fun e => e = .key g k
  toData file := ⟨file, none⟩
  contents text e := (text.parsed.entry e).or (text.behind.bind fun file => file.entry e)
  isGroupName := isGroupName
  isKeyName := isKeyName
  isPlain _ _ := true

theorem entryGLib_lawful : entryGLib.Lawful where
  getValue_setValue_of_ne file groupName key value g k hne := by
    have hne' : ¬ (g = groupName ∧ k = key) := fun ⟨hg, hk⟩ => hne (by rw [hg, hk])
    simp only [entryGLib, EntryFile.insert]
    split <;> simp [hne']
  hasGroup_setValue_of_ne file groupName key value g hne := by
    simp only [entryGLib, EntryFile.insert]
    split <;> simp [hne]
  setValue_self file groupName key value hname hkey := by
    have hproper : isGroupName groupName = true ∧ isKeyName key = true := ⟨hname, hkey⟩
    simp [entryGLib, EntryFile.insert, hproper]
  hasGroup_setValue file groupName key value hgroup := by
    have hgroup : (file.entry (.group groupName)).isSome = true := hgroup
    simp only [entryGLib, EntryFile.insert]
    split <;> simp [hgroup]
  getValue_removeGroup file groupName g k := by simp [entryGLib, EntryFile.erase]
  hasGroup_removeGroup file groupName g := by
    by_cases hg : g = groupName <;> simp [entryGLib, EntryFile.erase, hg]
  getValue_removeKey_of_ne file groupName key g k hne := by
    have hne' : ¬ (g = groupName ∧ k = key) := fun ⟨hg, hk⟩ => hne (by rw [hg, hk])
    simp [entryGLib, EntryFile.erase, hne']
  hasGroup_removeKey file groupName key g := by simp [entryGLib, EntryFile.erase]
  isGroupName_of_contents text g value h := by
    -- an entry stands in the part that was read, or behind the line that was not
    rcases Option.or_eq_some_iff.mp h with h | ⟨-, h⟩
    · exact text.parsed.proper g value h
    · obtain ⟨file, -, h⟩ := Option.bind_eq_some_iff.mp h
      exact file.proper g value h
  isGroupName_of_hasGroup file g h := by
    obtain ⟨value, hvalue⟩ := Option.isSome_iff_exists.mp h
    exact (file.proper g value hvalue).1
  isKeyName_enable := by decide
  isKeyName_driver := by decide

/-- Its texts say what is in the key file. -/
theorem entryGLib_savesExactly : entryGLib.SavesExactly := by
  intro file
  funext e
  cases e with
  | group g =>
    cases h : file.entry (.group g) with
    | none => simp [entryGLib, GKeyFile.entry, h]
    | some value =>
      obtain ⟨-, rfl⟩ := file.proper g value h
      simp [entryGLib, GKeyFile.entry, h]
  | key g k => simp [entryGLib, GKeyFile.entry]

/-- Short options only, one by one. -/
def shortOptions : OptionParser := fun entries argv =>
  argv.foldr (fun arg parsed => do
    let (flags, args) ← parsed
    match entries.find? fun entry => arg.toList = ['-', entry.shortName] with
    | some entry => return (entry.flag :: flags, args)
    | none => if arg.toList.head? = some '-' then .error 1 else return (flags, arg :: args))
    (.ok ([], []))

/-- Two drivers, the second behind a line that cannot be parsed. -/
def brokenText : EntryText where
  parsed := EntryFile.empty.insert "uru4000" "Enable" "false"
  behind := some (EntryFile.empty.insert "aes2501" "Enable" "true")

/-- Enabling the first driver loses the second. -/
theorem not_losesNothing_broken :
    ¬ LosesNothing entryGLib shortOptions ["enable-driver", "uru4000"] true (some brokenText) := by
  have hbefore : entryGLib.fileContents (some brokenText) (.group "aes2501") = some "" := by
    decide +kernel
  have hafter : entryGLib.fileContents (configTool entryGLib ["enable-driver", "uru4000"]
      shortOptions true (some brokenText)).file (.group "aes2501") = none := by decide +kernel
  rintro (hsame | ⟨command, flags, args, hinvocation, hkeeps, -⟩)
  · rw [hsame, hbefore] at hafter
    cases hafter
  · have hcall : invocation shortOptions ["enable-driver", "uru4000"] =
        .ok (.enableDriver, [], ["uru4000"]) := rfl
    obtain ⟨rfl, rfl, rfl⟩ : ConfigCommand.enableDriver = command ∧ [] = flags ∧
        ["uru4000"] = args := by simpa using hcall.symm.trans hinvocation
    have hlost := hkeeps (.group "aes2501") (by simp [ConfigCommand.names]) "" hbefore
    rw [hafter] at hlost
    cases hlost

/-- Where nothing is broken the second driver stays. -/
theorem losesNothing_parsed :
    LosesNothing entryGLib shortOptions ["enable-driver", "uru4000"] true (some (entryGLib.toData
      ((EntryFile.empty.insert "uru4000" "Enable" "false").insert "aes2501" "Enable" "true"))) := by
  refine (losesNothing_iff entryGLib_lawful entryGLib_savesExactly _ _ _ _).mpr ?_
  intro command flags args _ _ _
  refine Keeps.mono (Set.empty_subset _) ?_
  -- the text is that of the key file that is loaded
  rw [GKeyFile.fileContents, entryGLib_savesExactly]
  exact Keeps.refl _ _

end BiometricAuth
