import BiometricAuth.Codec.AesLoop
import BiometricAuth.Codec.Base64Loop
import BiometricAuth.Storage.Reader

/-!
# Stored templates

What an enrolled print goes through on its way into `EIGEN_INFO` and back: the
driver encrypts the serialized print and encodes it as Base64 into a buffer of
`size * 2 + 1` bytes, and keeps `size` as the sample number; to read it back it
allocates buffers of `sample->no` bytes, decodes into the first and decrypts
that into the second. Writing past the end of one of these buffers is `none`, and
so is an overflow of one of the loops.

Main result: `encodeTemplate_spec`.
-/

namespace BiometricAuth

/-- `community_internal_aes_encrypt`: what it writes to `out`. -/
def communityInternalAesEncrypt (key inData : Bytes) : Option Bytes := do
  let k ← aesKey key
  let (_, out) ← AES128CFBEncryptLoop k aesIv inData
  some out

/-- `community_internal_aes_decrypt`: what it writes to `out`. -/
def communityInternalAesDecrypt (key inData : Bytes) : Option Bytes := do
  let k ← aesKey key
  let (_, out) ← AES128CFBDecryptLoop k aesIv inData
  some out

/-- With a key of at least sixteen bytes both directions are defined and keep the
length, and decryption undoes encryption, as long as no `int` overflows. -/
theorem communityInternalAesDecrypt_encrypt {key : Bytes} (hkey : 16 ≤ key.length)
    {data : Bytes} (hlength : data.length ≤ 2147483632) :
    ∃ enc, communityInternalAesEncrypt key data = some enc ∧ enc.length = data.length ∧
      communityInternalAesDecrypt key enc = some data := by
  have hk : aesKey key = some (FeedbackMode.loadBlock 0 key) := if_pos hkey
  obtain ⟨hlen, hdec⟩ := AES128CFBDecrypt_encrypt (FeedbackMode.loadBlock 0 key) aesIv data
  refine ⟨AES128CFBEncrypt (FeedbackMode.loadBlock 0 key) aesIv data, ?_, hlen, ?_⟩
  · rw [communityInternalAesEncrypt, hk, Option.bind_eq_bind, Option.bind_some,
      AES128CFBEncryptLoop_eq _ _ hlength]
    rfl
  · rw [communityInternalAesDecrypt, hk, Option.bind_eq_bind, Option.bind_some,
      AES128CFBDecryptLoop_eq _ _ (hlen.le.trans hlength), hdec]
    rfl

/-- The text stored for a serialized print (`on_enroll_completed`). -/
def encodeTemplate (key print : Bytes) : Option Bytes := do
  let featureData ← communityInternalAesEncrypt key print
  let (_, featureEncode) ← bioBase64EncodeLoop featureData
  -- the text and its terminator have to fit into `buf_alloc(size * 2 + 1)`
  if featureEncode.length ≤ print.length * 2 + 1 then
    some (featureEncode.take (strlen featureEncode))
  else none

/-- The bytes handed to `fp_print_deserialize` for a sample (`create_prints`,
`community_ops_verify`). -/
def decodeTemplate (key : Bytes) (sample : FeatureSample) : Option Bytes := do
  let (_, decoded) ← bioBase64DecodeLoop sample.data
  -- the decoded bytes have to fit into `buf_alloc(sample->no)`, which is zeroed
  if (decoded.length : ℤ) ≤ sample.no then
    communityInternalAesDecrypt key
      (decoded ++ List.replicate (sample.no.toNat - decoded.length) 0)
  else none

/-- A print that can be stored: it has two bytes or more, and an `int` can count the characters of
its text. -/
def IsStorable (print : Bytes) : Prop := 2 ≤ print.length ∧ print.length ≤ 1610612733

instance (print : Bytes) : Decidable (IsStorable print) := inferInstanceAs (Decidable (_ ∧ _))

/-- The text of such a print decodes to exactly as many bytes as the print has, and these decrypt to
the print. -/
theorem encodeTemplate_spec {key print : Bytes} (hkey : 16 ≤ key.length)
    (hprint : IsStorable print) :
    ∃ text, encodeTemplate key print = some text ∧ ∃ bytes,
      bioBase64DecodeLoop text = some ((bytes.length : ℤ), bytes) ∧
      bytes.length = print.length ∧ communityInternalAesDecrypt key bytes = some print := by
  obtain ⟨hlower, hupper⟩ := hprint
  obtain ⟨enc, henc, hlen, hdec⟩ :=
    communityInternalAesDecrypt_encrypt hkey (show print.length ≤ 2147483632 by omega)
  obtain ⟨text, htext, -, hfits, hback⟩ := encodesBack_of_length (b := enc) (by omega)
  have hend : (text ++ [0]).take (strlen (text ++ [0])) = text := by
    have henc' := bioBase64EncodeLoop_eq enc
    rw [if_pos (by omega), htext, Option.some.injEq, Prod.mk.injEq] at henc'
    obtain rfl := List.append_cancel_right henc'.2
    rw [strlen_append_zero (zero_notMem_bioBase64Encode enc), List.take_left']
    rfl
  refine ⟨text, ?_, enc, hback, hlen, hdec⟩
  simp only [encodeTemplate, henc, htext, Option.bind_eq_bind, Option.bind_some]
  rw [if_pos (by rw [← hlen]; exact hfits (by omega)), hend]

/-- Decoding when the buffer is filled exactly. -/
theorem decodeTemplate_of_length {key bytes : Bytes} {sample : FeatureSample} {n : ℤ}
    (hdec : bioBase64DecodeLoop sample.data = some (n, bytes))
    (hlen : (bytes.length : ℤ) = sample.no) :
    decodeTemplate key sample = communityInternalAesDecrypt key bytes := by
  have hpad : sample.no.toNat - bytes.length = 0 := by omega
  simp [decodeTemplate, hdec, hlen.le, hpad]

end BiometricAuth
