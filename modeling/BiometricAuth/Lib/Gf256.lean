import Mathlib

/-!
# The field with 256 elements, on bytes

The bits of a byte are the coefficients of a polynomial over `ZMod 2` of degree less than 8, and
so an element of `GF256`, the polynomials modulo `X^8 + X^4 + X^3 + X + 1`. `byteEquiv` is this
correspondence.

* `byteEquiv_xor` — exclusive or is addition;
* `byteEquiv_xtime` — a shift with a conditional exclusive or is multiplication by `X`;
* `exists_powers` — every element but 0 is a power of `X + 1`, hence `GF256` is a field;
* `inv_map_powers` — the inverses of these powers, in order, which is how a table of inverses is
  checked.
-/

namespace Gf256

open Polynomial

/-! ### Bits -/

scoped instance neZeroEight : NeZero 8 := ⟨by decide⟩

/-- A bit of a byte. -/
def bit (b : UInt8) (i : Fin 8) : Bool := b.toNat.testBit i

/-- The byte with the given bits. -/
def ofBits (v : Fin 8 → Bool) : UInt8 :=
  UInt8.ofNat ((v 0).toNat + 2 * (v 1).toNat + 4 * (v 2).toNat + 8 * (v 3).toNat +
    16 * (v 4).toNat + 32 * (v 5).toNat + 64 * (v 6).toNat + 128 * (v 7).toNat)

/-- What holds of 256 bytes holds of every byte. -/
theorem forall_byte {p : UInt8 → Prop} (h : ∀ i : Fin 256, p (UInt8.ofFin i)) (b : UInt8) : p b :=
  UInt8.ofFin_toFin b ▸ h b.toFin

theorem ofBits_bit (b : UInt8) : ofBits (bit b) = b :=
  forall_byte (p := fun b => ofBits (bit b) = b) (by decide +kernel) b

theorem bit_ofBits (v : Fin 8 → Bool) : bit (ofBits v) = v := by
  have h : ∀ a b c d e f g h : Bool,
      bit (ofBits ![a, b, c, d, e, f, g, h]) = ![a, b, c, d, e, f, g, h] := by
    decide +kernel
  have hv : v = ![v 0, v 1, v 2, v 3, v 4, v 5, v 6, v 7] := by
    funext i
    fin_cases i <;> rfl
  rw [hv]
  exact h _ _ _ _ _ _ _ _

/-- A byte is its bits. -/
def bitEquiv : UInt8 ≃ (Fin 8 → Bool) := ⟨bit, ofBits, ofBits_bit, bit_ofBits⟩

theorem bit_xor (a b : UInt8) (i : Fin 8) : bit (a ^^^ b) i = (bit a i ^^ bit b i) := by
  rw [bit, UInt8.toNat_xor, Nat.testBit_xor]
  rfl

/-! ### The polynomials modulo `X^8 + X^4 + X^3 + X + 1` -/

/-- The modulus. -/
noncomputable def modulus : (ZMod 2)[X] := X ^ 8 + X ^ 4 + X ^ 3 + X + 1

theorem modulus_monic : modulus.Monic := by
  unfold modulus
  monicity!

theorem modulus_degree : modulus.degree = 8 := by
  unfold modulus
  compute_degree!

/-- The polynomials modulo `modulus`. -/
abbrev GF256 : Type := AdjoinRoot modulus

/-- A bit as a coefficient. -/
def coeffEquiv : Bool ≃ ZMod 2 where
  toFun a := if a then 1 else 0
  invFun x := decide (x = 1)
  left_inv a := by cases a <;> rfl
  right_inv x := by fin_cases x <;> rfl

theorem coeffEquiv_xor (a b : Bool) : coeffEquiv (a ^^ b) = coeffEquiv a + coeffEquiv b := by
  cases a <;> cases b <;> rfl

theorem degree_modByMonicHom_lt (x : GF256) :
    (AdjoinRoot.modByMonicHom modulus_monic x).degree < 8 := by
  induction x using AdjoinRoot.induction_on with
  | ih p =>
    rw [AdjoinRoot.modByMonicHom_mk, ← modulus_degree]
    exact degree_modByMonic_lt p modulus_monic

/-- Every class has one polynomial of degree less than 8. -/
noncomputable def coordinates : (Fin 8 → ZMod 2) ≃ GF256 where
  toFun v := AdjoinRoot.mk modulus (ofFn 8 v)
  invFun x := toFn 8 (AdjoinRoot.modByMonicHom modulus_monic x)
  left_inv v := by
    have hself : ofFn 8 v %ₘ modulus = ofFn 8 v := by
      refine (modByMonic_eq_self_iff modulus_monic).mpr ?_
      rw [modulus_degree]
      exact ofFn_degree_lt v
    change toFn 8 (ofFn 8 v %ₘ modulus) = v
    rw [hself, toFn_comp_ofFn_eq_id]
  right_inv x := by
    have hdegree : (AdjoinRoot.modByMonicHom modulus_monic x).natDegree < 8 := by
      by_cases hzero : AdjoinRoot.modByMonicHom modulus_monic x = 0
      · rw [hzero, natDegree_zero]
        decide
      · exact (natDegree_lt_iff_degree_lt hzero).mpr (degree_modByMonicHom_lt x)
    change AdjoinRoot.mk modulus (ofFn 8 (toFn 8 (AdjoinRoot.modByMonicHom modulus_monic x))) = x
    rw [ofFn_comp_toFn_eq_id_of_natDegree_lt hdegree]
    exact AdjoinRoot.mk_leftInverse modulus_monic x

/-- **A byte as an element of the field.** -/
noncomputable def byteEquiv : UInt8 ≃ GF256 :=
  bitEquiv.trans ((Equiv.piCongrRight fun _ => coeffEquiv).trans coordinates)

theorem byteEquiv_apply (b : UInt8) :
    byteEquiv b = AdjoinRoot.mk modulus (ofFn 8 fun i => coeffEquiv (bit b i)) := rfl

/-- Exclusive or is addition. -/
theorem byteEquiv_xor (a b : UInt8) : byteEquiv (a ^^^ b) = byteEquiv a + byteEquiv b := by
  rw [byteEquiv_apply, byteEquiv_apply, byteEquiv_apply, ← map_add, ← map_add]
  congr 2
  funext i
  rw [bit_xor, coeffEquiv_xor]
  rfl

/-- The class of `X`. -/
noncomputable abbrev x : GF256 := AdjoinRoot.root modulus

/-- A byte as a sum of powers of `X`. -/
theorem byteEquiv_eq_sum (b : UInt8) :
    byteEquiv b = ∑ i : Fin 8, (coeffEquiv (bit b i)) • x ^ (i : ℕ) := by
  rw [byteEquiv_apply, ofFn_eq_sum_monomial, map_sum]
  refine Finset.sum_congr rfl fun i _ => ?_
  rw [← C_mul_X_pow_eq_monomial, map_mul, map_pow, AdjoinRoot.mk_C, AdjoinRoot.mk_X,
    Algebra.smul_def]
  rfl

theorem byteEquiv_zero : byteEquiv 0 = 0 := by
  rw [byteEquiv_eq_sum]
  refine Finset.sum_eq_zero fun i _ => ?_
  rw [show coeffEquiv (bit 0 i) = 0 by fin_cases i <;> rfl, zero_smul]

theorem byteEquiv_one : byteEquiv 1 = 1 := by
  have h : ∀ i : Fin 8, coeffEquiv (bit 1 i) = if i = 0 then 1 else 0 := by decide
  rw [byteEquiv_eq_sum, Fin.sum_univ_eight]
  simp [h]

/-- The modulus is zero, and minus is plus. -/
theorem x_pow_eight : x ^ 8 = x ^ 4 + x ^ 3 + x + 1 := by
  have hzero : AdjoinRoot.mk modulus (X ^ 8 + (X ^ 4 + X ^ 3 + X + 1)) = 0 := by
    rw [← add_assoc, ← add_assoc, ← add_assoc]
    exact AdjoinRoot.mk_self
  have htwo : (2 : GF256) = 0 := by
    rw [← map_ofNat (AdjoinRoot.of modulus) 2, show (2 : ZMod 2) = 0 from rfl, map_zero]
  simp only [map_add, map_pow, AdjoinRoot.mk_X, map_one] at hzero
  linear_combination hzero - (x ^ 4 + x ^ 3 + x + 1) * htwo

/-! ### Multiplication by `X` -/

/-- Multiplication by `X`: the bit that is shifted out comes back as `X^4 + X^3 + X + 1`. -/
def xtime (b : UInt8) : UInt8 :=
  if b &&& 0x80 = 0 then b <<< 1 else (b <<< 1) ^^^ 0x1b

theorem bit_xtime (b : UInt8) : bit (xtime b) = ![bit b 7, bit b 0 ^^ bit b 7, bit b 1,
    bit b 2 ^^ bit b 7, bit b 3 ^^ bit b 7, bit b 4, bit b 5, bit b 6] := by
  refine forall_byte (p := fun b => bit (xtime b) = ![bit b 7, bit b 0 ^^ bit b 7, bit b 1,
    bit b 2 ^^ bit b 7, bit b 3 ^^ bit b 7, bit b 4, bit b 5, bit b 6]) ?_ b
  decide +kernel

theorem byteEquiv_xtime (b : UInt8) : byteEquiv (xtime b) = x * byteEquiv b := by
  rw [byteEquiv_eq_sum, byteEquiv_eq_sum, bit_xtime, Fin.sum_univ_eight, Fin.sum_univ_eight]
  -- the new coefficients, in terms of the old
  simp only [Matrix.cons_val, coeffEquiv_xor, add_smul]
  simp only [Algebra.smul_def]
  -- `X` times the highest term is the only one that has to be reduced
  have hhigh := x_pow_eight
  simp only [show ((0 : Fin 8) : ℕ) = 0 from rfl, show ((1 : Fin 8) : ℕ) = 1 from rfl,
    show ((2 : Fin 8) : ℕ) = 2 from rfl, show ((3 : Fin 8) : ℕ) = 3 from rfl,
    show ((4 : Fin 8) : ℕ) = 4 from rfl, show ((5 : Fin 8) : ℕ) = 5 from rfl,
    show ((6 : Fin 8) : ℕ) = 6 from rfl, show ((7 : Fin 8) : ℕ) = 7 from rfl]
  linear_combination -(algebraMap (ZMod 2) GF256 (coeffEquiv (bit b 7))) * hhigh

/-- Multiplication by `X + 1`. -/
def triple (b : UInt8) : UInt8 := xtime b ^^^ b

/-! ### The powers of `X + 1` -/

theorem byteEquiv_iterate_triple (i : ℕ) : byteEquiv (triple^[i] 1) = (x + 1) ^ i := by
  induction i with
  | zero => exact byteEquiv_one
  | succ i ih =>
    rw [Function.iterate_succ_apply', triple, byteEquiv_xor, byteEquiv_xtime, ih]
    ring

/-- `X + 1` has order 255: the primes that divide 255 are 3, 5 and 17. -/
theorem orderOf_generator : orderOf (x + 1) = 255 := by
  have hpow (i : ℕ) : (x + 1) ^ i = 1 ↔ triple^[i] 1 = 1 := by
    rw [← byteEquiv_iterate_triple, ← byteEquiv_one, byteEquiv.apply_eq_iff_eq]
  refine orderOf_eq_of_pow_and_pow_div_prime (by norm_num) ((hpow 255).mpr (by decide +kernel)) ?_
  intro p hp hdvd
  rw [Ne, hpow]
  have hcases : p = 3 ∨ p = 5 ∨ p = 17 := by
    have hmem : p ∈ Nat.primeFactors 255 := Nat.mem_primeFactors.mpr ⟨hp, hdvd, by norm_num⟩
    rw [show Nat.primeFactors 255 = {3, 5, 17} by decide +kernel] at hmem
    simpa using hmem
  obtain rfl | rfl | rfl := hcases <;> decide +kernel

noncomputable instance : Fintype GF256 := Fintype.ofEquiv UInt8 byteEquiv

theorem card_gf256 : Fintype.card GF256 = 256 := by
  rw [Fintype.ofEquiv_card, ← FinEnum.card_eq_fintypeCard, FinEnum.card_UInt8]
  rfl

instance : Nontrivial GF256 := Fintype.one_lt_card_iff_nontrivial.mp (by rw [card_gf256]; norm_num)

theorem generator_pow_ne_zero (i : ℕ) : (x + 1) ^ i ≠ 0 := by
  -- a power of the 255th power, which is 1, would be 0
  intro hzero
  have hone : ((x + 1) ^ i) ^ 255 = 1 := by
    rw [← pow_mul, mul_comm, pow_mul, ← orderOf_generator, pow_orderOf_eq_one, one_pow]
  rw [hzero, zero_pow (by norm_num)] at hone
  exact zero_ne_one hone

/-- **Powers.** Every element but 0 is a power of `X + 1`: there are 255 of each. -/
theorem exists_powers {y : GF256} (hy : y ≠ 0) : ∃ i < 255, (x + 1) ^ i = y := by
  classical
  have hinj : Set.InjOn (fun i => (x + 1) ^ i) (Finset.range 255 : Set ℕ) := by
    have h := pow_injOn_Iio_orderOf (x := x + 1)
    rwa [orderOf_generator, ← Finset.coe_range] at h
  have hsub : (Finset.range 255).image (fun i => (x + 1) ^ i) ⊆ Finset.univ.erase (0 : GF256) := by
    intro z hz
    obtain ⟨i, -, rfl⟩ := Finset.mem_image.mp hz
    exact Finset.mem_erase.mpr ⟨generator_pow_ne_zero i, Finset.mem_univ _⟩
  have heq := Finset.eq_of_subset_of_card_le hsub (by
    rw [Finset.card_erase_of_mem (Finset.mem_univ _), Finset.card_univ, card_gf256,
      Finset.card_image_of_injOn hinj, Finset.card_range])
  have hmem : y ∈ Finset.univ.erase (0 : GF256) := Finset.mem_erase.mpr ⟨hy, Finset.mem_univ _⟩
  rw [← heq] at hmem
  obtain ⟨i, hi, hpow⟩ := Finset.mem_image.mp hmem
  exact ⟨i, Finset.mem_range.mp hi, hpow⟩

/-! ### The field -/

theorem isField : IsField GF256 where
  exists_pair_ne := exists_pair_ne GF256
  mul_comm := mul_comm
  mul_inv_cancel {y} hy := by
    obtain ⟨i, hi, rfl⟩ := exists_powers hy
    refine ⟨(x + 1) ^ (255 - i), ?_⟩
    rw [← pow_add, Nat.add_sub_cancel' hi.le, ← orderOf_generator, pow_orderOf_eq_one]

theorem modulus_irreducible : Irreducible modulus := by
  have hmaximal : (Ideal.span {modulus}).IsMaximal := Ideal.Quotient.maximal_of_isField _ isField
  exact ((Ideal.span_singleton_prime modulus_monic.ne_zero).mp hmaximal.isPrime).irreducible

instance : Fact (Irreducible modulus) := ⟨modulus_irreducible⟩

/-- The multiplicative inverse, on bytes; that of 0 is 0. -/
noncomputable def byteInv (b : UInt8) : UInt8 := byteEquiv.symm (byteEquiv b)⁻¹

theorem byteInv_zero : byteInv 0 = 0 := by
  rw [byteInv, byteEquiv_zero, inv_zero, ← byteEquiv_zero, byteEquiv.symm_apply_apply]

theorem byteInv_iterate_triple {i : ℕ} (hi : i ≤ 255) :
    byteInv (triple^[i] 1) = triple^[255 - i] 1 := by
  rw [byteInv, Equiv.symm_apply_eq, byteEquiv_iterate_triple, byteEquiv_iterate_triple]
  refine inv_eq_of_mul_eq_one_right ?_
  rw [← pow_add, Nat.add_sub_cancel' hi, ← orderOf_generator, pow_orderOf_eq_one]

/-- The powers of `X + 1`, from the 0th to the 254th. -/
def powers : List UInt8 := List.iterate triple 1 255

/-- The inverses of `powers`: the same powers the other way round. -/
def inverses : List UInt8 := 1 :: powers.tail.reverse

theorem length_powers : powers.length = 255 := List.length_iterate _ _ _

theorem getElem_powers (i : ℕ) (hi : i < powers.length) : powers[i] = triple^[i] 1 :=
  List.getElem_iterate _ _ _ _ _

theorem inverses_eq : inverses = powers.map byteInv := by
  refine List.ext_getElem ?_ fun i hleft hright => ?_
  · rw [inverses, List.length_cons, List.length_reverse, List.length_tail, List.length_map,
      length_powers]
  rw [List.length_map, length_powers] at hright
  rw [List.getElem_map, getElem_powers, byteInv_iterate_triple hright.le]
  cases i with
  | zero =>
    -- the 0th power is its own inverse, and the 255th
    simp only [inverses, List.getElem_cons_zero]
    decide +kernel
  | succ i =>
    simp only [inverses, List.getElem_cons_succ, List.getElem_reverse, List.length_tail,
      length_powers, List.getElem_tail, getElem_powers]
    rw [show 255 - 1 - 1 - i + 1 = 255 - (i + 1) by omega]

/-- **Tables.** A function of the inverse is checked along the powers. -/
theorem eq_of_map_powers {α : Type*} {f g : UInt8 → α} (hzero : f 0 = g 0)
    (hpowers : powers.map f = inverses.map g) (b : UInt8) : f b = g (byteInv b) := by
  by_cases hb : b = 0
  · rw [hb, byteInv_zero, hzero]
  · have hne : byteEquiv b ≠ 0 := by rwa [← byteEquiv_zero, Ne, byteEquiv.apply_eq_iff_eq]
    obtain ⟨i, hi, hpow⟩ := exists_powers hne
    rw [← byteEquiv_iterate_triple, byteEquiv.apply_eq_iff_eq] at hpow
    have hmem : b ∈ powers := List.mem_iterate.mpr ⟨i, hi, hpow.symm⟩
    rw [inverses_eq, List.map_map] at hpowers
    exact List.map_inj_left.mp hpowers b hmem

end Gf256
