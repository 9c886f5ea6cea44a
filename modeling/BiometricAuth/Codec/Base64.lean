import BiometricAuth.Storage.Table

/-!
# Base64

`bio_base64_encode` and `bio_base64_decode` as they are written: the encoder
takes three bytes at a time and ends with one or two `=`, the decoder takes four
characters at a time and looks each of them up in the alphabet by running
through all of it (`sextet`); a character that is not there counts as `0xFF`.

The decoder stops at the terminator of the string only when it falls on the
start of a group. Inside a group it reads on, and past the terminator that is
out of bounds: `none`.

Main results: `bioBase64Decode_encode`, the round trip, and
`length_bioBase64Encode`, the length of the encoded text.
-/

namespace BiometricAuth

/-- `base64char`. -/
def base64char : List UInt8 :=
  "ABCDEFGHIJKLMNOPQRSTUVWXYZabcdefghijklmnopqrstuvwxyz0123456789+/".toList.map
    fun c => c.toNat.toUInt8

/-- `base64char[(int)current]`. -/
def base64Of (current : UInt8) : UInt8 := base64char.getD current.toNat 0

/-- The character `=`. -/
def base64Pad : UInt8 := 61

/-! ### Encoding -/

/-- The upper six bits of the first byte. -/
def current0 (b₀ : UInt8) : UInt8 := (b₀ >>> (2 : UInt8)) &&& 0x3F

/-- The lower two bits of the first byte, in place. -/
def current1 (b₀ : UInt8) : UInt8 := (b₀ <<< (4 : UInt8)) &&& 0x30

/-- The lower four bits of the second byte, in place. -/
def current2 (b₁ : UInt8) : UInt8 := (b₁ <<< (2 : UInt8)) &&& 0x3C

/-- `bio_base64_encode`: the text without its terminator. -/
def bioBase64Encode : Bytes → Bytes
  | [] => []
  | [b₀] => [base64Of (current0 b₀), base64Of (current1 b₀), base64Pad, base64Pad]
  | [b₀, b₁] =>
    [base64Of (current0 b₀), base64Of (current1 b₀ ||| ((b₁ >>> (4 : UInt8)) &&& 0x0F)),
     base64Of (current2 b₁), base64Pad]
  | b₀ :: b₁ :: b₂ :: rest =>
    base64Of (current0 b₀) :: base64Of (current1 b₀ ||| ((b₁ >>> (4 : UInt8)) &&& 0x0F)) ::
      base64Of (current2 b₁ ||| ((b₂ >>> (6 : UInt8)) &&& 0x03)) :: base64Of (b₂ &&& 0x3F) ::
      bioBase64Encode rest

/-! ### Decoding -/

/-- `temp[..]` for one character: the last `k` with `base64char[k]` that
character, `0xFF` when there is none. -/
def sextet (c : UInt8) : UInt8 :=
  (List.range 64).foldl (fun t k => if base64char.getD k 0 = c then k.toUInt8 else t) 0xFF

/-- The first byte of a group. -/
def octet0 (t₀ t₁ : UInt8) : UInt8 :=
  (t₀ <<< (2 : UInt8) &&& 0xFC) ||| (t₁ >>> (4 : UInt8) &&& 0x03)

/-- The second byte of a group. -/
def octet1 (t₁ t₂ : UInt8) : UInt8 :=
  (t₁ <<< (4 : UInt8) &&& 0xF0) ||| (t₂ >>> (2 : UInt8) &&& 0x0F)

/-- The third byte of a group. -/
def octet2 (t₂ t₃ : UInt8) : UInt8 :=
  (t₂ <<< (6 : UInt8) &&& 0xF0) ||| (t₃ &&& 0x3F)

/-- `bio_base64_decode`: the bytes written; `none` when the text is read past its
terminator. -/
def bioBase64Decode : Bytes → Option Bytes
  | [] => some []
  | [c₀, c₁, c₂] =>
    -- `base64[i + 3]` is the terminator; without a `=` the loop goes on behind it
    if c₂ = base64Pad then some [octet0 (sextet c₀) (sextet c₁)] else none
  | c₀ :: c₁ :: c₂ :: c₃ :: rest =>
    if c₂ = base64Pad then
      some [octet0 (sextet c₀) (sextet c₁)]
    else if c₃ = base64Pad then
      some [octet0 (sextet c₀) (sextet c₁), octet1 (sextet c₁) (sextet c₂)]
    else
      (bioBase64Decode rest).map fun data =>
        octet0 (sextet c₀) (sextet c₁) :: octet1 (sextet c₁) (sextet c₂) ::
          octet2 (sextet c₂) (sextet c₃) :: data
  | _ => none

/-! ### The alphabet -/

theorem sextet_base64Of_lt : ∀ k < 64, sextet (base64Of (UInt8.ofNat k)) = UInt8.ofNat k ∧
    base64Of (UInt8.ofNat k) ≠ base64Pad := by
  decide +kernel

/-- Looking up the character of a six-bit value gives the value back. -/
theorem sextet_base64Of {t : UInt8} (h : t &&& 0x3F = t) :
    sextet (base64Of t) = t ∧ base64Of t ≠ base64Pad := by
  have hlt : t.toNat < 64 := by
    have := congrArg UInt8.toNat h
    rw [UInt8.toNat_and] at this
    have hle : t.toNat &&& 63 ≤ 63 := Nat.and_le_right
    change t.toNat &&& 63 = t.toNat at this
    omega
  have := sextet_base64Of_lt t.toNat hlt
  rwa [UInt8.ofNat_toNat] at this

section Bits

variable (a b c : UInt8)

/-! What the four characters of a group are looked up as, and how the three bytes
come back; bit by bit. -/

theorem current0_lt : current0 a &&& 0x3F = current0 a := by
  apply UInt8.toBitVec_inj.mp
  ext i hi
  interval_cases i <;> simp [current0]

theorem current1_lt : current1 a &&& 0x3F = current1 a := by
  apply UInt8.toBitVec_inj.mp
  ext i hi
  interval_cases i <;> simp [current1]

theorem current1_or_lt : (current1 a ||| ((b >>> (4 : UInt8)) &&& 0x0F)) &&& 0x3F =
    current1 a ||| ((b >>> (4 : UInt8)) &&& 0x0F) := by
  apply UInt8.toBitVec_inj.mp
  ext i hi
  interval_cases i <;> simp [current1]

theorem current2_lt : current2 b &&& 0x3F = current2 b := by
  apply UInt8.toBitVec_inj.mp
  ext i hi
  interval_cases i <;> simp [current2]

theorem current2_or_lt : (current2 b ||| ((c >>> (6 : UInt8)) &&& 0x03)) &&& 0x3F =
    current2 b ||| ((c >>> (6 : UInt8)) &&& 0x03) := by
  apply UInt8.toBitVec_inj.mp
  ext i hi
  interval_cases i <;> simp [current2]

theorem last_lt : (c &&& 0x3F) &&& 0x3F = c &&& 0x3F := by
  apply UInt8.toBitVec_inj.mp
  ext i hi
  interval_cases i <;> simp

theorem octet0_current1 : octet0 (current0 a) (current1 a) = a := by
  apply UInt8.toBitVec_inj.mp
  ext i hi
  interval_cases i <;> simp [octet0, current0, current1]

theorem octet0_current1_or :
    octet0 (current0 a) (current1 a ||| ((b >>> (4 : UInt8)) &&& 0x0F)) = a := by
  apply UInt8.toBitVec_inj.mp
  ext i hi
  interval_cases i <;> simp [octet0, current0, current1]

theorem octet1_current2 :
    octet1 (current1 a ||| ((b >>> (4 : UInt8)) &&& 0x0F)) (current2 b) = b := by
  apply UInt8.toBitVec_inj.mp
  ext i hi
  interval_cases i <;> simp [octet1, current1, current2]

theorem octet1_current2_or : octet1 (current1 a ||| ((b >>> (4 : UInt8)) &&& 0x0F))
    (current2 b ||| ((c >>> (6 : UInt8)) &&& 0x03)) = b := by
  apply UInt8.toBitVec_inj.mp
  ext i hi
  interval_cases i <;> simp [octet1, current1, current2]

theorem octet2_last :
    octet2 (current2 b ||| ((c >>> (6 : UInt8)) &&& 0x03)) (c &&& 0x3F) = c := by
  apply UInt8.toBitVec_inj.mp
  ext i hi
  interval_cases i <;> simp [octet2, current2]

end Bits

/-- **Round trip.** -/
theorem bioBase64Decode_encode (data : Bytes) :
    bioBase64Decode (bioBase64Encode data) = some data := by
  induction data using bioBase64Encode.induct with
  | case1 => rfl
  | case2 b₀ =>
    simp only [bioBase64Encode, bioBase64Decode, if_true,
      (sextet_base64Of (current0_lt b₀)).1, (sextet_base64Of (current1_lt b₀)).1,
      octet0_current1]
  | case3 b₀ b₁ =>
    simp only [bioBase64Encode, bioBase64Decode, if_true,
      (sextet_base64Of (current0_lt b₀)).1, (sextet_base64Of (current1_or_lt b₀ b₁)).1,
      (sextet_base64Of (current2_lt b₁)).1, (sextet_base64Of (current2_lt b₁)).2, if_false,
      octet0_current1_or, octet1_current2]
  | case4 b₀ b₁ b₂ rest ih =>
    simp only [bioBase64Encode, bioBase64Decode, ih, Option.map_some,
      (sextet_base64Of (current0_lt b₀)).1, (sextet_base64Of (current1_or_lt b₀ b₁)).1,
      (sextet_base64Of (current2_or_lt b₁ b₂)).1, (sextet_base64Of (current2_or_lt b₁ b₂)).2,
      (sextet_base64Of (last_lt b₂)).1, (sextet_base64Of (last_lt b₂)).2, if_false,
      octet0_current1_or, octet1_current2_or, octet2_last]

/-- Four characters for every three bytes begun. -/
theorem length_bioBase64Encode (data : Bytes) :
    (bioBase64Encode data).length = 4 * ((data.length + 2) / 3) := by
  induction data using bioBase64Encode.induct with
  | case1 => rfl
  | case2 b₀ => simp [bioBase64Encode]
  | case3 b₀ b₁ => simp [bioBase64Encode]
  | case4 b₀ b₁ b₂ rest ih =>
    simp only [bioBase64Encode, List.length_cons, ih]
    omega

end BiometricAuth
