import BiometricAuth.Lib.FeedbackMode
import BiometricAuth.Storage.Table

/-!
# AES-128 in cipher feedback mode

`aes_128_cfb.c`: the key schedule, the cipher on one block, and the two loops
over the rounds of cipher feedback, which are the library's `FeedbackMode` over
bytes and exclusive or. Feedback mode runs the cipher forwards for both
directions; nothing calls `invCipher`.

A square of bytes is indexed `state[r][c]`, row first, as in the source. The key
is a buffer whose first sixteen bytes are read; from a shorter buffer the
schedule reads out of bounds (`none`).

Main result: `AES128CFBDecrypt_encrypt`.
-/

namespace BiometricAuth

/-- `unsigned char [4][4]`. -/
abbrev Square := Vector (Vector UInt8 4) 4

/-- `AES_BLOCK_SIZE` bytes. -/
abbrev AesBlock := Vector UInt8 16

/-- A square from its entries. -/
def Square.ofFn (f : Fin 4 → Fin 4 → UInt8) : Square := Vector.ofFn fun r => Vector.ofFn (f r)

/-- The entry in row `r` and column `c`. -/
def Square.at (s : Square) (r c : Fin 4) : UInt8 := (s.get r).get c

set_option maxRecDepth 2048 in
/-- `SBox`. -/
def SBox : Vector UInt8 256 :=
  #v[0x63, 0x7c, 0x77, 0x7b, 0xf2, 0x6b, 0x6f, 0xc5, 0x30, 0x01, 0x67, 0x2b, 0xfe, 0xd7, 0xab, 0x76,
     0xca, 0x82, 0xc9, 0x7d, 0xfa, 0x59, 0x47, 0xf0, 0xad, 0xd4, 0xa2, 0xaf, 0x9c, 0xa4, 0x72, 0xc0,
     0xb7, 0xfd, 0x93, 0x26, 0x36, 0x3f, 0xf7, 0xcc, 0x34, 0xa5, 0xe5, 0xf1, 0x71, 0xd8, 0x31, 0x15,
     0x04, 0xc7, 0x23, 0xc3, 0x18, 0x96, 0x05, 0x9a, 0x07, 0x12, 0x80, 0xe2, 0xeb, 0x27, 0xb2, 0x75,
     0x09, 0x83, 0x2c, 0x1a, 0x1b, 0x6e, 0x5a, 0xa0, 0x52, 0x3b, 0xd6, 0xb3, 0x29, 0xe3, 0x2f, 0x84,
     0x53, 0xd1, 0x00, 0xed, 0x20, 0xfc, 0xb1, 0x5b, 0x6a, 0xcb, 0xbe, 0x39, 0x4a, 0x4c, 0x58, 0xcf,
     0xd0, 0xef, 0xaa, 0xfb, 0x43, 0x4d, 0x33, 0x85, 0x45, 0xf9, 0x02, 0x7f, 0x50, 0x3c, 0x9f, 0xa8,
     0x51, 0xa3, 0x40, 0x8f, 0x92, 0x9d, 0x38, 0xf5, 0xbc, 0xb6, 0xda, 0x21, 0x10, 0xff, 0xf3, 0xd2,
     0xcd, 0x0c, 0x13, 0xec, 0x5f, 0x97, 0x44, 0x17, 0xc4, 0xa7, 0x7e, 0x3d, 0x64, 0x5d, 0x19, 0x73,
     0x60, 0x81, 0x4f, 0xdc, 0x22, 0x2a, 0x90, 0x88, 0x46, 0xee, 0xb8, 0x14, 0xde, 0x5e, 0x0b, 0xdb,
     0xe0, 0x32, 0x3a, 0x0a, 0x49, 0x06, 0x24, 0x5c, 0xc2, 0xd3, 0xac, 0x62, 0x91, 0x95, 0xe4, 0x79,
     0xe7, 0xc8, 0x37, 0x6d, 0x8d, 0xd5, 0x4e, 0xa9, 0x6c, 0x56, 0xf4, 0xea, 0x65, 0x7a, 0xae, 0x08,
     0xba, 0x78, 0x25, 0x2e, 0x1c, 0xa6, 0xb4, 0xc6, 0xe8, 0xdd, 0x74, 0x1f, 0x4b, 0xbd, 0x8b, 0x8a,
     0x70, 0x3e, 0xb5, 0x66, 0x48, 0x03, 0xf6, 0x0e, 0x61, 0x35, 0x57, 0xb9, 0x86, 0xc1, 0x1d, 0x9e,
     0xe1, 0xf8, 0x98, 0x11, 0x69, 0xd9, 0x8e, 0x94, 0x9b, 0x1e, 0x87, 0xe9, 0xce, 0x55, 0x28, 0xdf,
     0x8c, 0xa1, 0x89, 0x0d, 0xbf, 0xe6, 0x42, 0x68, 0x41, 0x99, 0x2d, 0x0f, 0xb0, 0x54, 0xbb, 0x16]

/-- `SBox[b]`. -/
def subByte (b : UInt8) : UInt8 := SBox.get ⟨b.toNat, b.toNat_lt⟩

/-- The round constants `rc`. -/
def rc : List UInt8 := [0x01, 0x02, 0x04, 0x08, 0x10, 0x20, 0x40, 0x80, 0x1b, 0x36]

/-! ### The cipher on one block -/

/-- `FFmul`. -/
def FFmul (a b : UInt8) : UInt8 :=
  let double (x : UInt8) : UInt8 :=
    if x &&& 0x80 ≠ 0 then (x <<< (1 : UInt8)) ^^^ 0x1b else x <<< (1 : UInt8)
  let bw₀ := b
  let bw₁ := double bw₀
  let bw₂ := double bw₁
  let bw₃ := double bw₂
  (if a &&& 0x01 ≠ 0 then bw₀ else 0) ^^^ (if a >>> (1 : UInt8) &&& 0x01 ≠ 0 then bw₁ else 0) ^^^
    (if a >>> (2 : UInt8) &&& 0x01 ≠ 0 then bw₂ else 0) ^^^
    (if a >>> (3 : UInt8) &&& 0x01 ≠ 0 then bw₃ else 0)

/-- `subBytes`. -/
def subBytes (s : Square) : Square := s.map fun row => row.map subByte

/-- `shiftRows`. -/
def shiftRows (s : Square) : Square := Square.ofFn fun r c => s.at r (c + r)

/-- `mixColumns`. -/
def mixColumns (s : Square) : Square := Square.ofFn fun r c =>
  FFmul 0x02 (s.at r c) ^^^ FFmul 0x03 (s.at (r + 1) c) ^^^
    FFmul 0x01 (s.at (r + 2) c) ^^^ FFmul 0x01 (s.at (r + 3) c)

/-- `addRoundKey`. -/
def addRoundKey (s k : Square) : Square := Square.ofFn fun r c => s.at r c ^^^ k.at r c

/-- One round of `keyExpansion`: the four columns of `w[i]` from those of
`w[i - 1]`, each from the one before it. -/
def nextRoundKey (w : Square) (rc : UInt8) : Square :=
  let t : Fin 4 → UInt8 := fun r => subByte (w.at (r + 1) 3) ^^^ if r = 0 then rc else 0
  let col₀ := Vector.ofFn fun r => w.at r 0 ^^^ t r
  let col₁ := Vector.ofFn fun r => w.at r 1 ^^^ col₀.get r
  let col₂ := Vector.ofFn fun r => w.at r 2 ^^^ col₁.get r
  let col₃ := Vector.ofFn fun r => w.at r 3 ^^^ col₂.get r
  Vector.ofFn fun r => #v[col₀.get r, col₁.get r, col₂.get r, col₃.get r]

/-- `keyExpansion`: the round keys `w[0]`, and `w[1]` to `w[10]`. -/
def keyExpansion (key : AesBlock) : Square × List Square :=
  let w₀ := Square.ofFn fun r c => key.get ⟨r + c * 4, by omega⟩
  (w₀, (rc.scanl nextRoundKey w₀).tail)

/-- The rounds of `cipher`; the last one leaves `mixColumns` out. -/
def cipherRounds : List Square → Square → Square
  | [], s => s
  | [k], s => addRoundKey (shiftRows (subBytes s)) k
  | k :: ks, s => cipherRounds ks (addRoundKey (mixColumns (shiftRows (subBytes s))) k)

/-- `cipher`. -/
def cipher (w : Square × List Square) (input : AesBlock) : AesBlock :=
  let state := Square.ofFn fun r c => input.get ⟨c * 4 + r, by omega⟩
  let state := cipherRounds w.2 (addRoundKey state w.1)
  Vector.ofFn fun i => state.at ⟨i % 4, by omega⟩ ⟨i / 4, by omega⟩

-- the known answer for the key `00 01 .. 0f` and the text `00 11 .. ff`
example : cipher (keyExpansion (Vector.ofFn fun i => i.val.toUInt8))
    (Vector.ofFn fun i => 17 * i.val.toUInt8) =
    #v[0x69, 0xc4, 0xe0, 0xd8, 0x6a, 0x7b, 0x04, 0x30, 0xd8, 0xcd, 0xb7, 0x80, 0x70, 0xb4,
       0xc5, 0x5a] := by
  decide +kernel

/-! ### The cipher backwards -/

set_option maxRecDepth 2048 in
/-- `InvSBox`. -/
def InvSBox : Vector UInt8 256 :=
  #v[0x52, 0x09, 0x6a, 0xd5, 0x30, 0x36, 0xa5, 0x38, 0xbf, 0x40, 0xa3, 0x9e, 0x81, 0xf3, 0xd7, 0xfb,
     0x7c, 0xe3, 0x39, 0x82, 0x9b, 0x2f, 0xff, 0x87, 0x34, 0x8e, 0x43, 0x44, 0xc4, 0xde, 0xe9, 0xcb,
     0x54, 0x7b, 0x94, 0x32, 0xa6, 0xc2, 0x23, 0x3d, 0xee, 0x4c, 0x95, 0x0b, 0x42, 0xfa, 0xc3, 0x4e,
     0x08, 0x2e, 0xa1, 0x66, 0x28, 0xd9, 0x24, 0xb2, 0x76, 0x5b, 0xa2, 0x49, 0x6d, 0x8b, 0xd1, 0x25,
     0x72, 0xf8, 0xf6, 0x64, 0x86, 0x68, 0x98, 0x16, 0xd4, 0xa4, 0x5c, 0xcc, 0x5d, 0x65, 0xb6, 0x92,
     0x6c, 0x70, 0x48, 0x50, 0xfd, 0xed, 0xb9, 0xda, 0x5e, 0x15, 0x46, 0x57, 0xa7, 0x8d, 0x9d, 0x84,
     0x90, 0xd8, 0xab, 0x00, 0x8c, 0xbc, 0xd3, 0x0a, 0xf7, 0xe4, 0x58, 0x05, 0xb8, 0xb3, 0x45, 0x06,
     0xd0, 0x2c, 0x1e, 0x8f, 0xca, 0x3f, 0x0f, 0x02, 0xc1, 0xaf, 0xbd, 0x03, 0x01, 0x13, 0x8a, 0x6b,
     0x3a, 0x91, 0x11, 0x41, 0x4f, 0x67, 0xdc, 0xea, 0x97, 0xf2, 0xcf, 0xce, 0xf0, 0xb4, 0xe6, 0x73,
     0x96, 0xac, 0x74, 0x22, 0xe7, 0xad, 0x35, 0x85, 0xe2, 0xf9, 0x37, 0xe8, 0x1c, 0x75, 0xdf, 0x6e,
     0x47, 0xf1, 0x1a, 0x71, 0x1d, 0x29, 0xc5, 0x89, 0x6f, 0xb7, 0x62, 0x0e, 0xaa, 0x18, 0xbe, 0x1b,
     0xfc, 0x56, 0x3e, 0x4b, 0xc6, 0xd2, 0x79, 0x20, 0x9a, 0xdb, 0xc0, 0xfe, 0x78, 0xcd, 0x5a, 0xf4,
     0x1f, 0xdd, 0xa8, 0x33, 0x88, 0x07, 0xc7, 0x31, 0xb1, 0x12, 0x10, 0x59, 0x27, 0x80, 0xec, 0x5f,
     0x60, 0x51, 0x7f, 0xa9, 0x19, 0xb5, 0x4a, 0x0d, 0x2d, 0xe5, 0x7a, 0x9f, 0x93, 0xc9, 0x9c, 0xef,
     0xa0, 0xe0, 0x3b, 0x4d, 0xae, 0x2a, 0xf5, 0xb0, 0xc8, 0xeb, 0xbb, 0x3c, 0x83, 0x53, 0x99, 0x61,
     0x17, 0x2b, 0x04, 0x7e, 0xba, 0x77, 0xd6, 0x26, 0xe1, 0x69, 0x14, 0x63, 0x55, 0x21, 0x0c, 0x7d]

/-- `InvSBox[b]`. -/
def invSubByte (b : UInt8) : UInt8 := InvSBox.get ⟨b.toNat, b.toNat_lt⟩

/-- `invSubBytes`. -/
def invSubBytes (s : Square) : Square := s.map fun row => row.map invSubByte

/-- `invShiftRows`. -/
def invShiftRows (s : Square) : Square := Square.ofFn fun r c => s.at r (c - r)

/-- `invMixColumns`. -/
def invMixColumns (s : Square) : Square := Square.ofFn fun r c =>
  FFmul 0x0e (s.at r c) ^^^ FFmul 0x0b (s.at (r + 1) c) ^^^
    FFmul 0x0d (s.at (r + 2) c) ^^^ FFmul 0x09 (s.at (r + 3) c)

/-- The rounds of `invCipher`, from the last round key but one to the first; the last round
leaves `invMixColumns` out. -/
def invCipherRounds : List Square → Square → Square
  | [], s => s
  | [k], s => addRoundKey (invSubBytes (invShiftRows s)) k
  | k :: ks, s => invCipherRounds ks (invMixColumns (addRoundKey (invSubBytes (invShiftRows s)) k))

/-- A table of eleven round keys, as `cipher` takes it. -/
def roundKeys (w : Vector Square 11) : Square × List Square := (w.get 0, w.toList.tail)

/-- `invCipher`. -/
def invCipher (w : Vector Square 11) (input : AesBlock) : AesBlock :=
  let state := Square.ofFn fun r c => input.get ⟨c * 4 + r, by omega⟩
  let state := invCipherRounds w.toList.dropLast.reverse (addRoundKey state (w.get 10))
  Vector.ofFn fun i => state.at ⟨i % 4, by omega⟩ ⟨i / 4, by omega⟩

/-! ### Cipher feedback -/

/-- The initial block of both directions: `0, 1, …, 15`. -/
def aesIv : AesBlock := Vector.ofFn fun i => i.val.toUInt8

/-- The bytes of the key that are read. -/
def aesKey (key : Bytes) : Option AesBlock :=
  if 16 ≤ key.length then some (FeedbackMode.loadBlock 0 key) else none

/-- `AES_128_CFB_Encrypt`. -/
def AES128CFBEncrypt (key iv : AesBlock) (inData : Bytes) : Bytes :=
  FeedbackMode.encrypt 0 (· ^^^ ·) (cipher (keyExpansion key)) iv inData

/-- `AES_128_CFB_Decrypt`. -/
def AES128CFBDecrypt (key iv : AesBlock) (inData : Bytes) : Bytes :=
  FeedbackMode.decrypt 0 (· ^^^ ·) (cipher (keyExpansion key)) iv inData

theorem xor_xor_cancel (a b : UInt8) : (a ^^^ b) ^^^ b = a := by
  rw [UInt8.xor_assoc, UInt8.xor_self, UInt8.xor_zero]

/-- Decryption undoes encryption, and neither changes the length. -/
theorem AES128CFBDecrypt_encrypt (key iv : AesBlock) (data : Bytes) :
    (AES128CFBEncrypt key iv data).length = data.length ∧
      AES128CFBDecrypt key iv (AES128CFBEncrypt key iv data) = data := by
  refine ⟨FeedbackMode.length_encrypt _ _ _ (by decide) _ _, ?_⟩
  rw [AES128CFBDecrypt, AES128CFBEncrypt,
    FeedbackMode.decrypt_encrypt _ _ _ xor_xor_cancel (by decide)]

end BiometricAuth
