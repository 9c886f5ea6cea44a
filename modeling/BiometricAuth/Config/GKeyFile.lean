import Mathlib.Data.Set.Function

/-!
# The key file of GLib

`biometric-config-tool` keeps the configuration of the drivers in a `GKeyFile`: groups, and in each
group keys with their values. GLib is not part of the program, so its key file is a parameter
(`GKeyFile`), with what the documentation of its functions says about them (`GKeyFile.Lawful`).

What a key file or its text holds are its `Contents`. Every function changes the entries it names
and no others (`entry_setValue`, `entry_removeGroup`, `entry_removeKey`).
-/

namespace BiometricAuth

/-! ### Entries -/

/-- What a key file can hold: a group, and a key in a group. -/
inductive Entry
  | group (name : String)
  | key (group key : String)
deriving DecidableEq

/-- A group with all its keys. -/
def Entry.ofGroup (name : String) : Set Entry := {e | e = .group name ∨ ∃ k, e = .key name k}

/-- The entries and their values; that of a group is empty. -/
abbrev Contents := Entry → Option String

/-! ### Key files -/

/-- A `GError`. -/
structure GError where
  code : ℤ

/-- The functions of GLib that the tool calls, on key files `κ` and on texts `φ` of the file. -/
structure GKeyFile (κ φ : Type) where
  /-- `g_key_file_load_from_file` into a new key file; after an error it is left with what was
  parsed before. -/
  loadFromFile : Option φ → κ × Option GError
  /-- `g_key_file_has_group`. -/
  hasGroup : κ → String → Bool
  /-- `g_key_file_get_value`; `none` if the key is not there. -/
  getValue : κ → String → String → Option String
  /-- `g_key_file_set_value`. -/
  setValue : κ → String → String → String → κ
  /-- `g_key_file_remove_group`. -/
  removeGroup : κ → String → κ
  /-- `g_key_file_remove_key`. -/
  removeKey : κ → String → String → κ
  /-- `g_key_file_to_data`, the text that `g_key_file_save_to_file` writes. -/
  toData : κ → φ
  /-- What a text says, whether or not it can be parsed. -/
  contents : φ → Contents
  /-- The names a group can have. -/
  isGroupName : String → Bool
  /-- The names a key can have. -/
  isKeyName : String → Bool
  /-- The keys and values that are read back from a text as they were written: the value needs no
  escapes, as a newline or a blank in front of it does, and the key is not for another language. -/
  isPlain : String → String → Bool

namespace GKeyFile

variable {κ φ : Type} (glib : GKeyFile κ φ)

/-- `g_key_file_has_key`. -/
def hasKey (keyFile : κ) (groupName key : String) : Bool :=
  (glib.getValue keyFile groupName key).isSome

/-- `g_key_file_set_boolean`. -/
def setBoolean (keyFile : κ) (groupName key : String) (value : Bool) : κ :=
  glib.setValue keyFile groupName key (if value then "true" else "false")

/-- What a key file holds. -/
def entry (keyFile : κ) : Contents
  | .group name => if glib.hasGroup keyFile name then some "" else none
  | .key groupName key => glib.getValue keyFile groupName key

/-- Whatever a key file holds can be read back from its text. -/
def Plain (keyFile : κ) : Prop :=
  ∀ g k value, glib.getValue keyFile g k = some value → glib.isPlain k value = true

/-- Every key file is saved exactly. -/
def SavesExactly : Prop := ∀ keyFile, glib.contents (glib.toData keyFile) = glib.entry keyFile

/-- What the functions do according to their documentation. -/
structure Lawful : Prop where
  /-- A value that is set changes nothing else. -/
  getValue_setValue_of_ne : ∀ keyFile groupName key value g k, (g, k) ≠ (groupName, key) →
    glib.getValue (glib.setValue keyFile groupName key value) g k = glib.getValue keyFile g k
  hasGroup_setValue_of_ne : ∀ keyFile groupName key value g, g ≠ groupName →
    glib.hasGroup (glib.setValue keyFile groupName key value) g = glib.hasGroup keyFile g
  /-- It is there, and its group, which is created if it was not found. -/
  setValue_self : ∀ keyFile groupName key value, glib.isGroupName groupName = true →
    glib.isKeyName key = true →
      glib.hasGroup (glib.setValue keyFile groupName key value) groupName = true ∧
        glib.getValue (glib.setValue keyFile groupName key value) groupName key = some value
  /-- No group is lost. -/
  hasGroup_setValue : ∀ keyFile groupName key value, glib.hasGroup keyFile groupName = true →
    glib.hasGroup (glib.setValue keyFile groupName key value) groupName = true
  /-- A group is removed with its keys, and no other. -/
  getValue_removeGroup : ∀ keyFile groupName g k,
    glib.getValue (glib.removeGroup keyFile groupName) g k =
      if g = groupName then none else glib.getValue keyFile g k
  hasGroup_removeGroup : ∀ keyFile groupName g,
    glib.hasGroup (glib.removeGroup keyFile groupName) g =
      (decide (g ≠ groupName) && glib.hasGroup keyFile g)
  /-- A key is removed, and no other; its group stays. -/
  getValue_removeKey_of_ne : ∀ keyFile groupName key g k, (g, k) ≠ (groupName, key) →
    glib.getValue (glib.removeKey keyFile groupName key) g k = glib.getValue keyFile g k
  hasGroup_removeKey : ∀ keyFile groupName key g,
    glib.hasGroup (glib.removeKey keyFile groupName key) g = glib.hasGroup keyFile g
  /-- Only a proper name stands in a text or a key file. -/
  isGroupName_of_contents : ∀ text g value, glib.contents text (.group g) = some value →
    glib.isGroupName g = true ∧ value = ""
  isGroupName_of_hasGroup : ∀ keyFile g, glib.hasGroup keyFile g = true → glib.isGroupName g = true
  /-- The keys that the tool sets by itself have proper names. -/
  isKeyName_enable : glib.isKeyName "Enable" = true
  isKeyName_driver : glib.isKeyName "Driver" = true

variable {glib} (hglib : glib.Lawful) (keyFile : κ) (groupName key : String)

include hglib

/-- The entries that `g_key_file_set_value` does not name. -/
theorem Lawful.entry_setValue (value : String) :
    Set.EqOn (glib.entry (glib.setValue keyFile groupName key value)) (glib.entry keyFile)
      {.group groupName, .key groupName key}ᶜ := by
  intro e he
  obtain ⟨hgroup, hkey⟩ : e ≠ .group groupName ∧ e ≠ .key groupName key := by simpa using he
  cases e with
  | group g =>
    have hne : g ≠ groupName := fun h => hgroup (congrArg Entry.group h)
    rw [entry, entry, hglib.hasGroup_setValue_of_ne _ _ _ _ _ hne]
  | key g k =>
    refine hglib.getValue_setValue_of_ne _ _ _ _ _ _ fun h => hkey ?_
    obtain ⟨rfl, rfl⟩ := Prod.mk.inj h
    rfl

/-- In a group that is there the group stays as well. -/
theorem Lawful.entry_setValue_of_hasGroup (value : String)
    (hgroup : glib.hasGroup keyFile groupName = true) :
    Set.EqOn (glib.entry (glib.setValue keyFile groupName key value)) (glib.entry keyFile)
      {.key groupName key}ᶜ := by
  intro e he
  by_cases hname : e = .group groupName
  · rw [hname, entry, entry, hgroup, hglib.hasGroup_setValue _ _ _ _ hgroup]
  · refine hglib.entry_setValue keyFile groupName key value ?_
    simp only [Set.mem_compl_iff, Set.mem_insert_iff, Set.mem_singleton_iff, hname, false_or]
    exact he

/-- The entries that `g_key_file_remove_group` does not name. -/
theorem Lawful.entry_removeGroup :
    Set.EqOn (glib.entry (glib.removeGroup keyFile groupName)) (glib.entry keyFile)
      (Entry.ofGroup groupName)ᶜ := by
  intro e he
  cases e with
  | group g =>
    have hne : g ≠ groupName := fun h => he (.inl (h ▸ rfl))
    rw [entry, entry, hglib.hasGroup_removeGroup, decide_eq_true hne, Bool.true_and]
  | key g k =>
    have hne : g ≠ groupName := fun h => he (.inr ⟨k, h ▸ rfl⟩)
    rw [entry, entry, hglib.getValue_removeGroup, if_neg hne]

/-- The entries that `g_key_file_remove_key` does not name. -/
theorem Lawful.entry_removeKey :
    Set.EqOn (glib.entry (glib.removeKey keyFile groupName key)) (glib.entry keyFile)
      {.key groupName key}ᶜ := by
  intro e he
  cases e with
  | group g => rw [entry, entry, hglib.hasGroup_removeKey]
  | key g k =>
    refine hglib.getValue_removeKey_of_ne _ _ _ _ _ fun h => he ?_
    obtain ⟨rfl, rfl⟩ := Prod.mk.inj h
    rfl

end GKeyFile

end BiometricAuth
