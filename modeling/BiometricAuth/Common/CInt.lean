import Mathlib

/-!
# Values of a C `int`

`int` has 32 bits. Arithmetic that leaves its range is undefined (`cInt`), reading a wider
database column cuts off the upper bits (`columnInt`).
-/

namespace BiometricAuth

/-- A value of a C `int`. -/
def IsCInt (x : ℤ) : Prop := -2 ^ 31 ≤ x ∧ x < 2 ^ 31

instance (x : ℤ) : Decidable (IsCInt x) := inferInstanceAs (Decidable (_ ∧ _))

/-- The result of signed arithmetic; `none` is an overflow. -/
def cInt (x : ℤ) : Option ℤ := if IsCInt x then some x else none

theorem cInt_eq_some {x : ℤ} (h : IsCInt x) : cInt x = some x := if_pos h

theorem cInt_eq_none {x : ℤ} (h : 2 ^ 31 ≤ x) : cInt x = none :=
  if_neg fun hint => absurd hint.2 (by omega)

theorem eq_of_cInt {x y : ℤ} (h : cInt x = some y) : y = x ∧ IsCInt x := by
  unfold cInt at h
  split at h
  · next hint => exact ⟨(Option.some.inj h).symm, hint⟩
  · cases h

/-- `sqlite3_column_int`: the lower 32 bits of the column, with their sign. -/
def columnInt (x : ℤ) : ℤ := x.bmod (2 ^ 32)

theorem columnInt_of_isCInt {x : ℤ} (h : IsCInt x) : columnInt x = x := by
  obtain ⟨hlower, hupper⟩ := h
  rw [columnInt, Int.bmod_def]
  split <;> omega

theorem isCInt_columnInt (x : ℤ) : IsCInt (columnInt x) := by
  rw [columnInt, Int.bmod_def, IsCInt]
  split <;> omega

/-- A column comes through whole exactly if it holds a value of type `int`. -/
theorem columnInt_eq_self_iff {x : ℤ} : columnInt x = x ↔ IsCInt x :=
  ⟨fun h => h ▸ isCInt_columnInt x, columnInt_of_isCInt⟩

@[simp] theorem columnInt_columnInt (x : ℤ) : columnInt (columnInt x) = columnInt x :=
  columnInt_of_isCInt (isCInt_columnInt x)

end BiometricAuth
