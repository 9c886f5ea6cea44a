import BiometricAuth.Codec.Aes
import BiometricAuth.Lib.Fips197

/-!
# The cipher is AES-128

`aes_128_cfb.c` against the standard. The tables and loops of the cipher are compared step by step
with `Fips197`; `cipher_keyExpansion` is the result, and `isStandardCfb_encrypt` what it makes of
cipher feedback over lists.
-/

namespace BiometricAuth

open Gf256

/-! ### The steps of a round -/

/-- `SBox` is the table of the S-box. -/
theorem subByte_eq (b : UInt8) : subByte b = Fips197.sBox b :=
  Fips197.eq_sBox_of_powers (by decide +kernel) (by decide +kernel) b

/-- The multiples that `mixColumns` uses. -/
theorem FFmul_eq (b : UInt8) :
    FFmul 0x01 b = b ∧ FFmul 0x02 b = xtime b ∧ FFmul 0x03 b = triple b :=
  forall_byte (p := fun b => FFmul 0x01 b = b ∧ FFmul 0x02 b = xtime b ∧ FFmul 0x03 b = triple b)
    (by decide +kernel) b

@[simp] theorem Square.at_ofFn (f : Fin 4 → Fin 4 → UInt8) : (Square.ofFn f).at = f := by
  funext r c
  simp [Square.at, Square.ofFn, Vector.get_eq_getElem]

theorem at_subBytes (s : Square) : (subBytes s).at = Fips197.subBytes s.at := by
  funext r c
  simp [subBytes, Fips197.subBytes, Square.at, Vector.get_eq_getElem, subByte_eq]

theorem at_shiftRows (s : Square) : (shiftRows s).at = Fips197.shiftRows s.at :=
  Square.at_ofFn _

theorem at_mixColumns (s : Square) : (mixColumns s).at = Fips197.mixColumns s.at := by
  funext r c
  obtain ⟨-, htwo, -⟩ := FFmul_eq (s.at r c)
  obtain ⟨-, -, hthree⟩ := FFmul_eq (s.at (r + 1) c)
  rw [mixColumns, Square.at_ofFn, Fips197.mixColumns_apply, htwo, hthree, (FFmul_eq _).1,
    (FFmul_eq _).1]

theorem at_addRoundKey (s k : Square) :
    (addRoundKey s k).at = Fips197.addRoundKey s.at k.at :=
  Square.at_ofFn _

/-! ### The key schedule -/

theorem nextRoundKey_zero (w : Square) (c : UInt8) (r : Fin 4) :
    (nextRoundKey w c).at r 0 =
      w.at r 0 ^^^ (subByte (w.at (r + 1) 3) ^^^ if r = 0 then c else 0) := by
  simp [nextRoundKey, Square.at, Vector.get_eq_getElem]

theorem nextRoundKey_succ (w : Square) (c : UInt8) (r : Fin 4) (j : Fin 3) :
    (nextRoundKey w c).at r j.succ =
      w.at r j.succ ^^^ (nextRoundKey w c).at r j.castSucc := by
  fin_cases j <;> simp [nextRoundKey, Square.at, Vector.get_eq_getElem]

/-- One round of the schedule, with its constant. -/
theorem at_nextRoundKey {key : Fips197.Block} {i : ℕ} {w : Square}
    (hw : w.at = Fips197.roundKey key i) :
    (nextRoundKey w (xtime^[i] 1)).at = Fips197.roundKey key (i + 1) := by
  funext r j
  -- the columns are computed from left to right
  induction j using Fin.induction with
  | zero =>
    rw [nextRoundKey_zero, Fips197.roundKey_succ_zero, Fips197.rcon_succ, subByte_eq, hw]
  | succ j ih => rw [nextRoundKey_succ, Fips197.roundKey_succ_succ, ih, hw]

theorem rc_eq : rc = (List.range' 0 10).map fun i => xtime^[i] 1 := by
  decide +kernel

/-- The rounds of the schedule from round `i` on. -/
theorem map_at_scanl_nextRoundKey {key : Fips197.Block} (k i : ℕ) {w : Square}
    (hw : w.at = Fips197.roundKey key i) :
    (((List.range' i k).map fun i => xtime^[i] 1).scanl nextRoundKey w).map Square.at =
      (List.range' i (k + 1)).map (Fips197.roundKey key) := by
  induction k generalizing i w with
  | zero => simp [hw]
  | succ k ih =>
    rw [List.range'_succ, List.map_cons, List.scanl_cons, List.map_cons, hw,
      ih (i + 1) (at_nextRoundKey hw), List.range'_succ (n := k + 1), List.map_cons]

theorem at_keyExpansion (key : AesBlock) :
    (keyExpansion key).1.at = Fips197.roundKey key.get 0 := by
  funext r c
  rw [keyExpansion, Square.at_ofFn, Fips197.roundKey_zero]
  congr 2
  omega

/-- **Key schedule.** -/
theorem map_at_keyExpansion (key : AesBlock) :
    (keyExpansion key).2.map Square.at = (List.range' 1 10).map (Fips197.roundKey key.get) := by
  have h := map_at_scanl_nextRoundKey 10 0 (at_keyExpansion key)
  rw [← rc_eq] at h
  have htail : (keyExpansion key).2 = (rc.scanl nextRoundKey (keyExpansion key).1).tail := rfl
  rw [htail, List.map_tail, h]
  rfl

/-! ### The rounds -/

/-- A round of the cipher but the last. -/
def aesRound (s k : Square) : Square := addRoundKey (mixColumns (shiftRows (subBytes s))) k

theorem cipherRounds_cons_cons (k k' : Square) (ks : List Square) (s : Square) :
    cipherRounds (k :: k' :: ks) s = cipherRounds (k' :: ks) (aesRound s k) := rfl

theorem cipherRounds_append (ks : List Square) (k s : Square) :
    cipherRounds (ks ++ [k]) s = addRoundKey (shiftRows (subBytes (ks.foldl aesRound s))) k := by
  induction ks generalizing s with
  | nil => rfl
  | cons k' ks ih =>
    cases ks with
    | nil => rfl
    | cons k'' ks =>
      rw [List.cons_append, List.cons_append, cipherRounds_cons_cons, ← List.cons_append,
        ih (aesRound s k'), List.foldl_cons (b := s)]

theorem at_foldl_aesRound {key : Fips197.Block} {ks : List Square} {is : List ℕ} (s : Square)
    (hks : ks.map Square.at = is.map (Fips197.roundKey key)) :
    (ks.foldl aesRound s).at = is.foldl (Fips197.round key) s.at := by
  induction ks generalizing is s with
  | nil =>
    obtain rfl : is = [] := by simpa using hks.symm
    rfl
  | cons k ks ih =>
    cases is with
    | nil => simp at hks
    | cons i is =>
      obtain ⟨hk, hks⟩ := List.cons.inj hks
      rw [List.foldl_cons, List.foldl_cons, ih (aesRound s k) hks, aesRound, at_addRoundKey,
        at_mixColumns, at_shiftRows, at_subBytes, hk, Fips197.round]

/-- **The cipher is AES-128.** -/
theorem cipher_keyExpansion (key input : AesBlock) :
    (cipher (keyExpansion key) input).get = Fips197.cipher key.get input.get := by
  -- the first nine round keys, and the last
  obtain ⟨ks, k, hlist⟩ : ∃ ks k, (keyExpansion key).2 = ks ++ [k] :=
    ⟨_, _, (List.dropLast_append_getLast (by simp [keyExpansion, rc])).symm⟩
  have hkeys := map_at_keyExpansion key
  rw [hlist, List.map_append, List.range'_1_concat (s := 1) (n := 9), List.map_append] at hkeys
  obtain ⟨hks, hk⟩ := List.append_inj' hkeys rfl
  have hk : k.at = Fips197.roundKey key.get 10 := List.cons.inj hk |>.1
  -- the state before the rounds
  have hstate : (addRoundKey (Square.ofFn fun r c => input.get ⟨c * 4 + r, by omega⟩)
      (keyExpansion key).1).at = Fips197.addRoundKey
        (fun r c => input.get ⟨r + 4 * c, by omega⟩) (Fips197.roundKey key.get 0) := by
    rw [at_addRoundKey, Square.at_ofFn, at_keyExpansion]
    congr 1
    funext r c
    congr 2
    omega
  funext i
  rw [cipher, hlist, cipherRounds_append, Fips197.cipher, ← hstate, ← at_foldl_aesRound _ hks, ← hk,
    ← at_subBytes, ← at_shiftRows, ← at_addRoundKey]
  simp [Vector.get_eq_getElem]

/-! ### Cipher feedback -/

/-- What the standard says of an encryption: as many bytes as the text has, and every byte of the
text is added to its place in the AES-128 of the initial block, or of the block of ciphertext
before. -/
def IsStandardCfb (key iv : AesBlock) (inData : Bytes) (n : ℤ) (outData : Bytes) : Prop :=
  n = inData.length ∧ outData.length = inData.length ∧
    ∀ (i : ℕ) (hi : i < inData.length),
      let X : AesBlock := if i < 16 then iv
        else Vector.ofFn fun j => outData.getD ((i / 16 - 1) * 16 + j) 0
      outData[i]? = some (inData[i] ^^^ Fips197.cipher key.get X.get ⟨i % 16, by omega⟩)

/-- **`AES128CFBEncrypt` is the standard.** -/
theorem isStandardCfb_encrypt (key iv : AesBlock) (inData : Bytes) :
    IsStandardCfb key iv inData inData.length (AES128CFBEncrypt key iv inData) := by
  refine ⟨rfl, FeedbackMode.length_encrypt _ _ _ (by decide) _ _, fun i hi => ?_⟩
  have hsymbol := FeedbackMode.getElem?_encrypt 0 (· ^^^ ·) (cipher (keyExpansion key))
    (by decide) iv inData i hi
  rw [AES128CFBEncrypt, hsymbol, cipher_keyExpansion, FeedbackMode.feedbackBlock]
  congr 5
  simp [FeedbackMode.loadBlock]

end BiometricAuth
