import BiometricAuth.Common.CInt
import BiometricAuth.Driver.Prints

/-!
# The configured AES key

`community_para_config` fills the buffer `priv->aes_key` from the key file of the configuration, or
from the default key where there is none, and `keyExpansion` reads the first sixteen bytes of the
buffer whatever its size.

Main result: `keyOk_iff`, for which configurations these sixteen bytes are in the buffer.
-/

namespace BiometricAuth

/-- What the configuration leads to. -/
inductive KeyConfig
  /-- There is no `AESKey`. -/
  | missing
  /-- `access` finds no file, or none that can be read. -/
  | noAccess
  /-- `fopen` fails. -/
  | notOpened
  /-- A file with its bytes. -/
  | file (content : Bytes)

/-- `DEFAULT_AES_KEY_MAX_LEN`. -/
def defaultAesKeyMaxLen : ℤ := 256 / 8

/-- A copy of the default key with its terminator. -/
def defaultKeyBuffer : Bytes := defaultAesKey ++ [0]

/-- The buffer for a key file in which `ftell` finds `len` bytes: these bytes and a terminator. -/
def readKeyFile (content : Bytes) (len : ℤ) : Option Bytes :=
  if len = 0 then some defaultKeyBuffer
  else
    let len := if len > defaultAesKeyMaxLen then defaultAesKeyMaxLen else len
    -- a negative number of bytes is a huge one for `malloc`, `memset` and `fread`
    if len < 0 then none
    else
      let aesKey := content.take len.toNat ++ [0]
      if aesKey.head? = some 0 then some defaultKeyBuffer else some aesKey

/-- `len`: an `int`, where `ftell` returns a `long`. -/
def keyFileLen (content : Bytes) : ℤ := (content.length : ℤ).bmod (2 ^ 32)

/-- `community_para_config`: the buffer `priv->aes_key` points to; `none` is undefined. -/
def communityParaConfig : KeyConfig → Option Bytes
  | .missing => some defaultKeyBuffer
  | .noAccess => some defaultKeyBuffer
  | .notOpened => some defaultKeyBuffer
  | .file content => readKeyFile content (keyFileLen content)

/-- The key schedule made of a buffer and of what happens to be behind it in memory. -/
def keySchedule (buffer : Bytes) (behind : ℕ → UInt8) : Square × List Square :=
  keyExpansion (Vector.ofFn fun i => (buffer[(i : ℕ)]?).getD (behind i))

/-- The sixteen bytes of the key are in the buffer, so that two loads give the same schedule. -/
def KeyOk (config : KeyConfig) : Prop :=
  ∃ buffer, communityParaConfig config = some buffer ∧ 16 ≤ buffer.length ∧
    ∀ behind behind', keySchedule buffer behind = keySchedule buffer behind'

theorem keySchedule_of_length {buffer : Bytes} (h : 16 ≤ buffer.length)
    (behind behind' : ℕ → UInt8) : keySchedule buffer behind = keySchedule buffer behind' := by
  unfold keySchedule
  congr 2
  funext i
  rw [List.getElem?_eq_getElem (by omega), Option.getD_some, Option.getD_some]

theorem length_defaultKeyBuffer : defaultKeyBuffer.length = 30 := by decide

/-- The lengths of key files for which the key is long enough: an `int` sees nothing of the file,
or at least fifteen bytes, or the file is taken for empty because of its first byte. -/
def LongEnough (content : Bytes) : Prop :=
  keyFileLen content = 0 ∨ 15 ≤ keyFileLen content ∨
    0 < keyFileLen content ∧ content.head? = some 0

theorem keyOk_of_length {config : KeyConfig} {buffer : Bytes}
    (h : communityParaConfig config = some buffer) : KeyOk config ↔ 16 ≤ buffer.length := by
  constructor
  · rintro ⟨buffer', hbuffer', hlength, -⟩
    rw [h] at hbuffer'
    rwa [Option.some.inj hbuffer']
  · exact fun hlength => ⟨buffer, h, hlength, keySchedule_of_length hlength⟩

theorem keyOk_of_default {config : KeyConfig}
    (h : communityParaConfig config = some defaultKeyBuffer) : KeyOk config :=
  (keyOk_of_length h).mpr (by rw [length_defaultKeyBuffer]; norm_num)

theorem keyFileLen_le (content : Bytes) : keyFileLen content ≤ content.length := by
  unfold keyFileLen Int.bmod
  norm_num
  omega

/-- What is read of a file that is not empty. -/
theorem readKeyFile_of_pos {content : Bytes} {len : ℤ} (hle : len ≤ content.length)
    (hpos : 0 < len) : ∃ read, read.length = (min len 32).toNat ∧ readKeyFile content len =
      if content.head? = some 0 then some defaultKeyBuffer else some (read ++ [0]) := by
  have hread : (content.take (min len 32).toNat).length = (min len 32).toNat := by
    rw [List.length_take]
    omega
  have hmin : (if len > defaultAesKeyMaxLen then defaultAesKeyMaxLen else len) = min len 32 := by
    unfold defaultAesKeyMaxLen
    split <;> omega
  have hhead : (content.take (min len 32).toNat ++ [0]).head? = content.head? := by
    cases content with
    | nil => simp at hle; omega
    | cons c content =>
      obtain ⟨n, hn⟩ := Nat.exists_eq_succ_of_ne_zero (n := (min len 32).toNat) (by omega)
      rw [hn]
      rfl
  refine ⟨_, hread, ?_⟩
  simp only [readKeyFile, if_neg hpos.ne', hmin, if_neg (show ¬ min len 32 < 0 by omega), hhead]

/-- A key file is long enough, or too short a buffer is made of it. -/
theorem keyOk_file_iff (content : Bytes) : KeyOk (.file content) ↔ LongEnough content := by
  have hle := keyFileLen_le content
  have hload : communityParaConfig (.file content) = readKeyFile content (keyFileLen content) := rfl
  unfold LongEnough
  generalize keyFileLen content = len at hle hload
  rcases lt_trichotomy len 0 with hneg | rfl | hpos
  · -- the buffer cannot be allocated
    have hmin : ¬ len > defaultAesKeyMaxLen := by unfold defaultAesKeyMaxLen; omega
    have hnone : readKeyFile content len = none := by
      simp only [readKeyFile, if_neg hneg.ne, if_neg hmin, if_pos hneg]
    refine iff_of_false ?_ (by omega)
    rintro ⟨buffer, hbuffer, -⟩
    rw [hload, hnone] at hbuffer
    cases hbuffer
  · exact iff_of_true (keyOk_of_default hload) (.inl rfl)
  · obtain ⟨read, hread, hbuffer⟩ := readKeyFile_of_pos hle hpos
    rw [hbuffer] at hload
    by_cases hzero : content.head? = some 0
    · rw [if_pos hzero] at hload
      exact iff_of_true (keyOk_of_default hload) (.inr (.inr ⟨hpos, hzero⟩))
    · rw [if_neg hzero] at hload
      rw [keyOk_of_length hload, List.length_append, hread, List.length_singleton]
      have hlong : ¬ (0 < len ∧ content.head? = some 0) := fun h => hzero h.2
      simp only [hlong, or_false]
      omega

/-- The buffer has the sixteen bytes exactly if the default key is used or the key file is long
enough. -/
theorem keyOk_iff (config : KeyConfig) :
    KeyOk config ↔ ∀ content, config = .file content → LongEnough content := by
  cases config with
  | missing => exact iff_of_true (keyOk_of_default rfl) (by simp)
  | noAccess => exact iff_of_true (keyOk_of_default rfl) (by simp)
  | notOpened => exact iff_of_true (keyOk_of_default rfl) (by simp)
  | file content => rw [keyOk_file_iff]; simp

/-- A file of eight characters makes a buffer of nine bytes. -/
theorem not_keyOk_eight : ¬ ∀ config, KeyOk config := by
  intro h
  obtain ⟨buffer, hbuffer, hlength, -⟩ := h (.file [115, 101, 99, 114, 101, 116, 33, 10])
  have hshort : communityParaConfig (.file [115, 101, 99, 114, 101, 116, 33, 10]) =
      some [115, 101, 99, 114, 101, 116, 33, 10, 0] := by decide
  rw [hshort] at hbuffer
  obtain rfl := Option.some.inj hbuffer
  exact absurd hlength (by decide)

end BiometricAuth
