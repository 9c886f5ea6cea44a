import BiometricAuth.Lib.Gf256

/-!
# AES-128 as the standard defines it

The cipher of FIPS 197 for keys of four words, over the field `GF256`: the S-box is an affine map
of the inverse, `mixColumns` multiplies every column by a matrix, and the key schedule is a
recurrence over words. Nothing here is meant to be run; an implementation is compared with it.

* `eq_sBox_of_powers` — a table is the S-box when it is along the powers of the generator;
* `mixColumns_apply` — the matrix product with shifts and exclusive or;
* `roundKey_succ_zero`, `roundKey_succ_succ` — a round key from the one before, column by column.
-/

namespace Fips197

open Gf256

/-- Four bytes. -/
abbrev Word := Fin 4 → UInt8

/-- Four rows of four bytes. -/
abbrev State := Fin 4 → Fin 4 → UInt8

/-- Sixteen bytes. -/
abbrev Block := Fin 16 → UInt8

scoped instance neZeroFour : NeZero 4 := ⟨by decide⟩

/-- Where a byte of the state is in a block. -/
theorem index_lt (r c : Fin 4) : (r : ℕ) + 4 * c < 16 := by omega

theorem row_lt (i : Fin 16) : (i : ℕ) % 4 < 4 := by omega

theorem column_lt (i : Fin 16) : (i : ℕ) / 4 < 4 := by omega

/-! ### The steps of a round -/

/-- The affine map over the bits of a byte. -/
def affine (b : UInt8) : UInt8 := ofBits fun i =>
  bit b i ^^ bit b (i + 4) ^^ bit b (i + 5) ^^ bit b (i + 6) ^^ bit b (i + 7) ^^ bit 0x63 i

/-- The S-box. -/
noncomputable def sBox (b : UInt8) : UInt8 := affine (byteInv b)

noncomputable def subBytes (s : State) : State := fun r c => sBox (s r c)

def shiftRows (s : State) : State := fun r c => s r (c + r)

/-- The matrix of `mixColumns`: `{02}` is `x` and `{03}` is `x + 1`. -/
noncomputable def mixMatrix : Matrix (Fin 4) (Fin 4) GF256 :=
  !![x, x + 1, 1, 1;
     1, x, x + 1, 1;
     1, 1, x, x + 1;
     x + 1, 1, 1, x]

noncomputable def mixColumns (s : State) : State := fun r c =>
  byteEquiv.symm (mixMatrix.mulVec (fun i => byteEquiv (s i c)) r)

def addRoundKey (s k : State) : State := fun r c => s r c ^^^ k r c

/-! ### The key schedule -/

def rotWord (w : Word) : Word := fun r => w (r + 1)

noncomputable def subWord (w : Word) : Word := fun r => sBox (w r)

/-- The word `[x^(j - 1), 0, 0, 0]`. -/
noncomputable def rcon (j : ℕ) : Word := fun r =>
  if r = 0 then byteEquiv.symm (x ^ (j - 1)) else 0

/-- The words of the key schedule: `w[i]`. -/
noncomputable def keyExpansion (key : Block) (i : ℕ) : Word :=
  if h : i < 4 then fun r => key ⟨4 * i + r, by omega⟩
  else
    let temp := keyExpansion key (i - 1)
    let temp := if i % 4 = 0 then fun r => subWord (rotWord temp) r ^^^ rcon (i / 4) r else temp
    fun r => keyExpansion key (i - 4) r ^^^ temp r
termination_by i
decreasing_by all_goals omega

/-- The words `w[4 i]` to `w[4 i + 3]` as columns. -/
noncomputable def roundKey (key : Block) (i : ℕ) : State := fun r c =>
  keyExpansion key (4 * i + c) r

/-! ### The cipher -/

/-- A round of the cipher but the last. -/
noncomputable def round (key : Block) (s : State) (i : ℕ) : State :=
  addRoundKey (mixColumns (shiftRows (subBytes s))) (roundKey key i)

/-- **AES-128.** Rounds 1 to 9, and round 10 without `mixColumns`. -/
noncomputable def cipher (key input : Block) : Block :=
  let s : State := addRoundKey (fun r c => input ⟨r + 4 * c, index_lt r c⟩) (roundKey key 0)
  let s := (List.range' 1 9).foldl (round key) s
  let s := addRoundKey (shiftRows (subBytes s)) (roundKey key 10)
  fun i => s ⟨i % 4, row_lt i⟩ ⟨i / 4, column_lt i⟩

/-! ### Comparing an implementation with it -/

/-- A table is the S-box when it is at 0 and at the powers of the generator, whose inverses are
the same powers the other way round. -/
theorem eq_sBox_of_powers {f : UInt8 → UInt8} (hzero : f 0 = affine 0)
    (hpowers : powers.map f = inverses.map affine) (b : UInt8) : f b = sBox b :=
  eq_of_map_powers hzero hpowers b

theorem byteEquiv_triple (b : UInt8) : byteEquiv (triple b) = (x + 1) * byteEquiv b := by
  rw [triple, byteEquiv_xor, byteEquiv_xtime]
  ring

theorem mixColumns_apply (s : State) (r c : Fin 4) :
    mixColumns s r c = xtime (s r c) ^^^ triple (s (r + 1) c) ^^^ s (r + 2) c ^^^ s (r + 3) c := by
  rw [mixColumns, Equiv.symm_apply_eq, byteEquiv_xor, byteEquiv_xor, byteEquiv_xor,
    byteEquiv_xtime, byteEquiv_triple, Matrix.mulVec, dotProduct, Fin.sum_univ_four]
  -- every row of the matrix is the one above it, rotated
  fin_cases r <;> simp [mixMatrix] <;> ring

theorem rcon_succ (j : ℕ) (r : Fin 4) :
    rcon (j + 1) r = if r = 0 then xtime^[j] 1 else 0 := by
  have hpow : byteEquiv (xtime^[j] 1) = x ^ j := by
    induction j with
    | zero => exact byteEquiv_one
    | succ j ih => rw [Function.iterate_succ_apply', byteEquiv_xtime, ih, pow_succ']
  rw [rcon, Nat.add_sub_cancel, ← hpow, byteEquiv.symm_apply_apply]

theorem roundKey_zero (key : Block) (r c : Fin 4) :
    roundKey key 0 r c = key ⟨r + 4 * c, by omega⟩ := by
  have hc : 4 * 0 + (c : ℕ) < 4 := by omega
  rw [roundKey, keyExpansion, dif_pos hc]
  congr 2
  omega

/-- The recurrence at the first word of a round key. -/
theorem keyExpansion_first (key : Block) (i : ℕ) (r : Fin 4) :
    keyExpansion key (4 * i + 4) r = keyExpansion key (4 * i) r ^^^
      (sBox (keyExpansion key (4 * i + 3) (r + 1)) ^^^ rcon (i + 1) r) := by
  have hfirst : (4 * i + 4) % 4 = 0 := by omega
  have hround : (4 * i + 4) / 4 = i + 1 := by omega
  rw [keyExpansion, dif_neg (by omega)]
  simp only [if_pos hfirst, hround]
  rfl

/-- The recurrence at the other words. -/
theorem keyExpansion_other (key : Block) {i : ℕ} (hi : i % 4 ≠ 0) (r : Fin 4) :
    keyExpansion key (i + 4) r = keyExpansion key i r ^^^ keyExpansion key (i + 3) r := by
  have hother : (i + 4) % 4 ≠ 0 := by omega
  rw [keyExpansion, dif_neg (by omega)]
  simp only [if_neg hother]
  rfl

/-- The first column of a round key. -/
theorem roundKey_succ_zero (key : Block) (i : ℕ) (r : Fin 4) :
    roundKey key (i + 1) r 0 =
      roundKey key i r 0 ^^^ (sBox (roundKey key i (r + 1) 3) ^^^ rcon (i + 1) r) :=
  keyExpansion_first key i r

/-- The other columns of a round key. -/
theorem roundKey_succ_succ (key : Block) (i : ℕ) (r : Fin 4) (c : Fin 3) :
    roundKey key (i + 1) r c.succ =
      roundKey key i r c.succ ^^^ roundKey key (i + 1) r c.castSucc := by
  have h := keyExpansion_other key (i := 4 * i + (c + 1)) (by omega) r
  simp only [roundKey, Fin.val_succ, Fin.val_castSucc]
  rwa [show 4 * (i + 1) + ((c : ℕ) + 1) = 4 * i + (c + 1) + 4 by omega,
    show 4 * (i + 1) + (c : ℕ) = 4 * i + (c + 1) + 3 by omega]

end Fips197
