import BiometricAuth.Codec.AesSpec

/-!
# The inverse of the cipher

`invCipher` of `aes_128_cfb.c`. Nothing calls it, since cipher feedback runs the cipher forwards;
it undoes the cipher with any eleven round keys, not only with those of a key schedule.

The steps of a round are undone one by one, `mixColumns` over `GF256`. The two functions order
these steps differently within a round: `cipherRounds` ends a round with its key, and
`invCipherRounds` has it in the middle. So a round is compared from the key to the key
(`invAesRound`).

Main result: `invCipher_cipher`.
-/

namespace BiometricAuth

open Gf256

/-! ### The steps of a round -/

theorem Square.ext_at {s t : Square} (h : s.at = t.at) : s = t := by
  refine Vector.ext fun r hr => Vector.ext fun c hc => ?_
  exact congrFun (congrFun h ⟨r, hr⟩) ⟨c, hc⟩

/-- `SBox` undoes `InvSBox`, entry by entry. -/
theorem subByte_invSubByte (b : UInt8) : subByte (invSubByte b) = b := by
  have htable : InvSBox.toList.map subByte = (List.range 256).map UInt8.ofNat := by
    decide +kernel
  have hentry := congrArg (fun l => l[b.toNat]?) htable
  have hlt : b.toNat < 256 := b.toNat_lt
  simp only [List.getElem?_map, Vector.getElem?_toList, List.getElem?_range hlt,
    Vector.getElem?_eq_getElem hlt, Option.map_some, Option.some.injEq, UInt8.ofNat_toNat] at hentry
  exact hentry

/-- There are as many bytes as entries, so `InvSBox` undoes `SBox` too. -/
theorem invSubByte_subByte (b : UInt8) : invSubByte (subByte b) = b := by
  have hsurjective : Function.Surjective subByte := fun b => ⟨invSubByte b, subByte_invSubByte b⟩
  exact Finite.injective_iff_surjective.mpr hsurjective (subByte_invSubByte (subByte b))

theorem invSubBytes_subBytes (s : Square) : invSubBytes (subBytes s) = s := by
  refine Square.ext_at (funext fun r => funext fun c => ?_)
  simp [invSubBytes, subBytes, Square.at, Vector.get_eq_getElem, invSubByte_subByte]

theorem subBytes_invSubBytes (s : Square) : subBytes (invSubBytes s) = s := by
  refine Square.ext_at (funext fun r => funext fun c => ?_)
  simp [invSubBytes, subBytes, Square.at, Vector.get_eq_getElem, subByte_invSubByte]

theorem invShiftRows_shiftRows (s : Square) : invShiftRows (shiftRows s) = s := by
  refine Square.ext_at (funext fun r => funext fun c => ?_)
  rw [invShiftRows, shiftRows, Square.at_ofFn, Square.at_ofFn, sub_add_cancel]

theorem shiftRows_invShiftRows (s : Square) : shiftRows (invShiftRows s) = s := by
  refine Square.ext_at (funext fun r => funext fun c => ?_)
  rw [shiftRows, invShiftRows, Square.at_ofFn, Square.at_ofFn, add_sub_cancel_right]

theorem addRoundKey_addRoundKey (s k : Square) : addRoundKey (addRoundKey s k) k = s := by
  refine Square.ext_at (funext fun r => funext fun c => ?_)
  rw [addRoundKey, addRoundKey, Square.at_ofFn, Square.at_ofFn, xor_xor_cancel]

/-! ### Mixing the columns -/

/-- The field has characteristic two. -/
theorem two_eq_zero : (2 : GF256) = 0 := by
  rw [← one_add_one_eq_two, ← byteEquiv_one, ← byteEquiv_xor, UInt8.xor_self, byteEquiv_zero]

/-- The matrix of `invMixColumns`. -/
noncomputable def invMixMatrix : Matrix (Fin 4) (Fin 4) GF256 :=
  !![x ^ 3 + x ^ 2 + x, x ^ 3 + x + 1, x ^ 3 + x ^ 2 + 1, x ^ 3 + 1;
     x ^ 3 + 1, x ^ 3 + x ^ 2 + x, x ^ 3 + x + 1, x ^ 3 + x ^ 2 + 1;
     x ^ 3 + x ^ 2 + 1, x ^ 3 + 1, x ^ 3 + x ^ 2 + x, x ^ 3 + x + 1;
     x ^ 3 + x + 1, x ^ 3 + x ^ 2 + 1, x ^ 3 + 1, x ^ 3 + x ^ 2 + x]

/-- `FFmul` adds the multiples of `b` that the bits of `a` ask for. -/
theorem FFmul_eq_xtime (a b : UInt8) : FFmul a b =
    (if a &&& 0x01 ≠ 0 then b else 0) ^^^
      (if a >>> (1 : UInt8) &&& 0x01 ≠ 0 then xtime b else 0) ^^^
      (if a >>> (2 : UInt8) &&& 0x01 ≠ 0 then xtime (xtime b) else 0) ^^^
      (if a >>> (3 : UInt8) &&& 0x01 ≠ 0 then xtime (xtime (xtime b)) else 0) := by
  have hdouble : ∀ y : UInt8, (if y &&& 0x80 ≠ 0 then (y <<< (1 : UInt8)) ^^^ 0x1b
      else y <<< (1 : UInt8)) = xtime y :=
    fun y => ite_not (y &&& 0x80 = 0) _ _
  simp only [FFmul, hdouble]

/-- The multiples that `invMixColumns` uses. -/
theorem FFmul_inv_eq (b : UInt8) :
    FFmul 0x09 b = b ^^^ xtime (xtime (xtime b)) ∧
    FFmul 0x0b b = b ^^^ xtime b ^^^ xtime (xtime (xtime b)) ∧
    FFmul 0x0d b = b ^^^ xtime (xtime b) ^^^ xtime (xtime (xtime b)) ∧
    FFmul 0x0e b = xtime b ^^^ xtime (xtime b) ^^^ xtime (xtime (xtime b)) := by
  refine ⟨?_, ?_, ?_, ?_⟩ <;>
  · rw [FFmul_eq_xtime]
    simp +decide

theorem at_invMixColumns (s : Square) (r c : Fin 4) : (invMixColumns s).at r c =
    byteEquiv.symm (invMixMatrix.mulVec (fun i => byteEquiv (s.at i c)) r) := by
  obtain ⟨-, -, -, he⟩ := FFmul_inv_eq (s.at r c)
  obtain ⟨-, hb, -, -⟩ := FFmul_inv_eq (s.at (r + 1) c)
  obtain ⟨-, -, hd, -⟩ := FFmul_inv_eq (s.at (r + 2) c)
  obtain ⟨h9, -, -, -⟩ := FFmul_inv_eq (s.at (r + 3) c)
  rw [Equiv.eq_symm_apply, invMixColumns, Square.at_ofFn, he, hb, hd, h9]
  simp only [byteEquiv_xor, byteEquiv_xtime, Matrix.mulVec, dotProduct, Fin.sum_univ_four]
  -- every row of the matrix is the one above it, rotated
  fin_cases r <;> simp [invMixMatrix] <;> ring

/-- An entry of the product depends on the distance of its row and column only. -/
theorem invMixMatrix_mul_mixMatrix : invMixMatrix * Fips197.mixMatrix = 1 := by
  have hzero : (x ^ 3 + x ^ 2 + x) * x + (x ^ 3 + x + 1) + (x ^ 3 + x ^ 2 + 1) +
      (x ^ 3 + 1) * (x + 1) = (1 : GF256) := by
    linear_combination (x ^ 4 + 2 * x ^ 3 + x ^ 2 + x + 1) * two_eq_zero
  have hone : (x ^ 3 + x ^ 2 + x) * (x + 1) + (x ^ 3 + x + 1) * x + (x ^ 3 + x ^ 2 + 1) +
      (x ^ 3 + 1) = (0 : GF256) := by
    linear_combination (x ^ 4 + 2 * x ^ 3 + 2 * x ^ 2 + x + 1) * two_eq_zero
  -- at a distance of three the same sum, in another order
  have htwo : (x ^ 3 + x ^ 2 + x) + (x ^ 3 + x + 1) * (x + 1) + (x ^ 3 + x ^ 2 + 1) * x +
      (x ^ 3 + 1) = (0 : GF256) := by
    linear_combination (x ^ 4 + 2 * x ^ 3 + x ^ 2 + 2 * x + 1) * two_eq_zero
  ext i j
  fin_cases i <;> fin_cases j <;>
    simp only [Matrix.mul_apply, Fin.sum_univ_four, invMixMatrix, Fips197.mixMatrix] <;>
    simp <;>
    first
      | linear_combination hzero
      | linear_combination hone
      | linear_combination htwo

/-- A column in the field. -/
noncomputable def columnAt (s : Square) (c : Fin 4) : Fin 4 → GF256 := fun r => byteEquiv (s.at r c)

theorem columnAt_mixColumns (s : Square) (c : Fin 4) :
    columnAt (mixColumns s) c = Fips197.mixMatrix.mulVec (columnAt s c) := by
  funext r
  rw [columnAt, at_mixColumns, Fips197.mixColumns, byteEquiv.apply_symm_apply]
  rfl

theorem columnAt_invMixColumns (s : Square) (c : Fin 4) :
    columnAt (invMixColumns s) c = invMixMatrix.mulVec (columnAt s c) := by
  funext r
  rw [columnAt, at_invMixColumns, byteEquiv.apply_symm_apply]
  rfl

theorem Square.ext_columnAt {s t : Square} (h : ∀ c, columnAt s c = columnAt t c) : s = t := by
  refine Square.ext_at (funext fun r => funext fun c => ?_)
  exact byteEquiv.injective (congrFun (h c) r)

theorem invMixColumns_mixColumns (s : Square) : invMixColumns (mixColumns s) = s := by
  refine Square.ext_columnAt fun c => ?_
  rw [columnAt_invMixColumns, columnAt_mixColumns, Matrix.mulVec_mulVec,
    invMixMatrix_mul_mixMatrix, Matrix.one_mulVec]

theorem mixColumns_invMixColumns (s : Square) : mixColumns (invMixColumns s) = s := by
  refine Square.ext_columnAt fun c => ?_
  rw [columnAt_mixColumns, columnAt_invMixColumns, Matrix.mulVec_mulVec,
    mul_eq_one_comm.mp invMixMatrix_mul_mixMatrix, Matrix.one_mulVec]

/-! ### The rounds -/

/-- Folding over a list is undone by folding over it backwards. -/
theorem foldl_reverse_foldl {α β : Type*} {f g : α → β → α} (h : ∀ a b, g (f a b) b = a)
    (bs : List β) (a : α) : bs.reverse.foldl g (bs.foldl f a) = a := by
  induction bs generalizing a with
  | nil => rfl
  | cons b bs ih =>
    rw [List.reverse_cons, List.foldl_append, List.foldl_cons (b := a), ih (f a b)]
    exact h a b

/-- A round of the cipher but the last, undone: from the state after its key to the one before
it. -/
def invAesRound (s k : Square) : Square :=
  invSubBytes (invShiftRows (invMixColumns (addRoundKey s k)))

theorem invAesRound_aesRound (s k : Square) : invAesRound (aesRound s k) k = s := by
  rw [invAesRound, aesRound, addRoundKey_addRoundKey, invMixColumns_mixColumns,
    invShiftRows_shiftRows, invSubBytes_subBytes]

theorem aesRound_invAesRound (s k : Square) : aesRound (invAesRound s k) k = s := by
  rw [aesRound, invAesRound, subBytes_invSubBytes, shiftRows_invShiftRows,
    mixColumns_invMixColumns, addRoundKey_addRoundKey]

/-- The rounds of `invCipher` are rounds of the cipher undone, between an end that undoes the
last round and the first round key. -/
theorem invCipherRounds_append (ks : List Square) (k s : Square) :
    invCipherRounds (ks ++ [k]) s =
      addRoundKey (ks.foldl invAesRound (invSubBytes (invShiftRows s))) k := by
  induction ks generalizing s with
  | nil => rfl
  | cons k' ks ih =>
    have hrounds : invCipherRounds (k' :: (ks ++ [k])) s = invCipherRounds (ks ++ [k])
        (invMixColumns (addRoundKey (invSubBytes (invShiftRows s)) k')) := by
      cases ks <;> rfl
    rw [List.cons_append, hrounds, ih, List.foldl_cons (b := invSubBytes (invShiftRows s))]
    rfl

/-- The rounds of the two functions undo each other. -/
theorem invCipherRounds_cipherRounds (k₀ : Square) (ks : List Square) (k s : Square) :
    invCipherRounds (ks.reverse ++ [k₀])
      (addRoundKey (cipherRounds (ks ++ [k]) (addRoundKey s k₀)) k) = s := by
  rw [invCipherRounds_append, cipherRounds_append, addRoundKey_addRoundKey,
    invShiftRows_shiftRows, invSubBytes_subBytes, foldl_reverse_foldl invAesRound_aesRound,
    addRoundKey_addRoundKey]

theorem cipherRounds_invCipherRounds (k₀ : Square) (ks : List Square) (k s : Square) :
    cipherRounds (ks ++ [k])
      (addRoundKey (invCipherRounds (ks.reverse ++ [k₀]) (addRoundKey s k)) k₀) = s := by
  have hfold := foldl_reverse_foldl aesRound_invAesRound ks.reverse
  rw [List.reverse_reverse] at hfold
  rw [invCipherRounds_append, cipherRounds_append, addRoundKey_addRoundKey, hfold,
    subBytes_invSubBytes, shiftRows_invShiftRows, addRoundKey_addRoundKey]

/-! ### Blocks -/

theorem blockIndex_lt (r c : Fin 4) : (c : ℕ) * 4 + r < 16 := by omega

/-- The state of a block. -/
def loadSquare (b : AesBlock) : Square :=
  Square.ofFn fun r c => b.get ⟨c * 4 + r, blockIndex_lt r c⟩

/-- The block of a state. -/
def storeSquare (s : Square) : AesBlock :=
  Vector.ofFn fun i => s.at ⟨i % 4, Fips197.row_lt i⟩ ⟨i / 4, Fips197.column_lt i⟩

theorem loadSquare_storeSquare (s : Square) : loadSquare (storeSquare s) = s := by
  refine Square.ext_at (funext fun r => funext fun c => ?_)
  rw [loadSquare, Square.at_ofFn, storeSquare]
  simp only [Vector.get_eq_getElem, Vector.getElem_ofFn]
  congr 1 <;> exact Fin.ext (by simp only; omega)

theorem storeSquare_loadSquare (b : AesBlock) : storeSquare (loadSquare b) = b := by
  refine Vector.ext fun i hi => ?_
  rw [storeSquare, Vector.getElem_ofFn, loadSquare, Square.at_ofFn, Vector.get_eq_getElem]
  congr 1
  simp only
  omega

/-- The first round key, those of the rounds in between and the last. -/
theorem roundKeys_eq (w : Vector Square 11) : ∃ k₀ ks k, roundKeys w = (k₀, ks ++ [k]) ∧
    w.toList.dropLast.reverse = ks.reverse ++ [k₀] ∧ w.get 10 = k := by
  obtain ⟨k₀, ks, k, hw⟩ : ∃ k₀ ks k, w.toList = k₀ :: (ks ++ [k]) := by
    have hlength : w.toList.length = 11 := w.length_toList
    cases hl : w.toList with
    | nil => simp [hl] at hlength
    | cons k₀ l =>
      have hne : l ≠ [] := by
        rintro rfl
        simp [hl] at hlength
      exact ⟨k₀, l.dropLast, l.getLast hne, by rw [List.dropLast_append_getLast]⟩
  have hlength : ks.length = 9 := by
    simpa [hw] using w.length_toList
  refine ⟨k₀, ks, k, ?_, ?_, ?_⟩
  · have hfirst : w.toList[0]? = some (w.get 0) := by simp [Vector.get_eq_getElem]
    rw [hw, List.getElem?_cons_zero] at hfirst
    rw [roundKeys, ← Option.some.inj hfirst, hw, List.tail_cons]
  · rw [hw, ← List.cons_append, List.dropLast_concat, List.reverse_cons]
  · have hlast : w.toList[10]? = some (w.get 10) := by simp [Vector.get_eq_getElem]
    rw [hw, List.getElem?_cons_succ, ← hlength, List.getElem?_concat_length] at hlast
    exact (Option.some.inj hlast).symm

/-- **The block decipher.** With any round keys it undoes the cipher, and the cipher undoes it. -/
theorem invCipher_cipher (w : Vector Square 11) (b : AesBlock) :
    invCipher w (cipher (roundKeys w) b) = b ∧ cipher (roundKeys w) (invCipher w b) = b := by
  obtain ⟨k₀, ks, k, hkeys, hreverse, hback⟩ := roundKeys_eq w
  have hcipher : ∀ b, cipher (roundKeys w) b =
      storeSquare (cipherRounds (ks ++ [k]) (addRoundKey (loadSquare b) k₀)) := by
    intro b
    rw [hkeys]
    rfl
  have hinv : ∀ b, invCipher w b =
      storeSquare (invCipherRounds (ks.reverse ++ [k₀]) (addRoundKey (loadSquare b) k)) := by
    intro b
    rw [← hreverse, ← hback]
    rfl
  constructor
  · rw [hcipher, hinv, loadSquare_storeSquare, invCipherRounds_cipherRounds,
      storeSquare_loadSquare]
  · rw [hinv, hcipher, loadSquare_storeSquare, cipherRounds_invCipherRounds,
      storeSquare_loadSquare]

end BiometricAuth
