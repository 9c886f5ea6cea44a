import Mathlib

/-!
# Tables of flags

An array with one flag for each number below its size. Numbers are marked in it one
after another, and then the first unmarked number is looked for from some place on. An
access outside of the array is `none`.

What a table stands for is the set of the numbers marked in it (`Marks`):

* `Marks.markAll` — marking a list of numbers goes through exactly if all of them are
  below the size, and adds them to the set;
* `Marks.scan` — the scan finds the least number that is not in the set, or that there
  is none in its range.
-/

namespace FlagTable

/-- `flags[i] = 1`. -/
def mark (flags : List Bool) (i : ℤ) : Option (List Bool) :=
  if 0 ≤ i ∧ i < flags.length then some (flags.set i.toNat true) else none

/-- The numbers of a list are marked in turn. -/
def markAll (flags : List Bool) (is : List ℤ) : Option (List Bool) := is.foldlM mark flags

/-- `flags[i]`. -/
def get? (flags : List Bool) (i : ℤ) : Option Bool := if 0 ≤ i then flags[i.toNat]? else none

/-- The first unmarked number of the next `turns` ones from `i` on. -/
def scan (flags : List Bool) : ℕ → ℤ → Option (Option ℤ)
  | 0, _ => some none
  | turns + 1, i => do
    if ← get? flags i then scan flags turns (i + 1) else some (some i)

/-- The table has a flag for each number below `size`, and the marked ones are those of
`marked`. -/
structure Marks (size : ℤ) (marked : Set ℤ) (flags : List Bool) : Prop where
  length : (flags.length : ℤ) = size
  flag : ∀ i (hi : i < flags.length), flags[i] = true ↔ (i : ℤ) ∈ marked

namespace Marks

variable {size : ℤ} {marked : Set ℤ} {flags : List Bool}

/-- Reading a number below the size. -/
theorem get? (h : Marks size marked flags) {i : ℤ} (hpos : 0 ≤ i) (hi : i < size) :
    ∃ flag, FlagTable.get? flags i = some flag ∧ (flag = true ↔ i ∈ marked) := by
  have hlength := h.length
  have hlt : i.toNat < flags.length := by omega
  have hflag := h.flag i.toNat hlt
  rw [Int.toNat_of_nonneg hpos] at hflag
  refine ⟨flags[i.toNat], ?_, hflag⟩
  rw [FlagTable.get?, if_pos hpos, List.getElem?_eq_getElem hlt]

/-- One step: a number below the size is marked, any other is out of bounds. -/
theorem mark (h : Marks size marked flags) (i : ℤ) :
    (0 ≤ i ∧ i < size) ∧
        (∃ flags', FlagTable.mark flags i = some flags' ∧ Marks size (insert i marked) flags') ∨
      ¬ (0 ≤ i ∧ i < size) ∧ FlagTable.mark flags i = none := by
  have hlength := h.length
  by_cases hi : 0 ≤ i ∧ i < size
  · refine .inl ⟨hi, flags.set i.toNat true, if_pos ⟨hi.1, by omega⟩, ?_, ?_⟩
    · rw [List.length_set, hlength]
    · intro j hj
      rw [List.length_set] at hj
      rw [List.getElem_set, Set.mem_insert_iff]
      split
      · next heq => exact iff_of_true rfl (.inl (by omega))
      · next hne =>
        have hji : (j : ℤ) ≠ i := by omega
        rw [h.flag j hj, or_iff_right hji]
  · refine .inr ⟨hi, if_neg fun hin => hi ⟨hin.1, ?_⟩⟩
    rw [← hlength]
    exact hin.2

/-- Marking a list. -/
theorem markAll (h : Marks size marked flags) (is : List ℤ) :
    (∀ i ∈ is, 0 ≤ i ∧ i < size) ∧ (∃ flags', FlagTable.markAll flags is = some flags' ∧
        Marks size (marked ∪ {i | i ∈ is}) flags') ∨
      (∃ i ∈ is, ¬ (0 ≤ i ∧ i < size)) ∧ FlagTable.markAll flags is = none := by
  unfold FlagTable.markAll
  induction is generalizing marked flags with
  | nil => exact .inl ⟨by simp, flags, rfl, by simpa using h⟩
  | cons i is ih =>
    rw [List.foldlM_cons]
    cases h.mark i with
    | inl hmark =>
      obtain ⟨hi, flags₁, hflags₁, hmarks⟩ := hmark
      -- the first index is inside
      rw [hflags₁]
      cases ih hmarks with
      | inl hrest =>
        -- so are the others: the marks are those of both
        obtain ⟨hall, flags', hflags', hmarks'⟩ := hrest
        refine .inl ⟨List.forall_mem_cons.mpr ⟨hi, hall⟩, flags', hflags', ?_⟩
        have hset : insert i marked ∪ {j | j ∈ is} = marked ∪ {j | j ∈ i :: is} := by
          ext j
          simp only [Set.mem_union, Set.mem_insert_iff, Set.mem_ofPred_eq, List.mem_cons]
          tauto
        rwa [hset] at hmarks'
      | inr hrest =>
        -- one of the others is outside
        obtain ⟨⟨j, hj, hout⟩, hnone⟩ := hrest
        exact .inr ⟨⟨j, List.mem_cons_of_mem i hj, hout⟩, hnone⟩
    | inr hmark =>
      -- the first index is outside
      refine .inr ⟨⟨i, List.mem_cons_self, hmark.1⟩, ?_⟩
      rw [hmark.2]
      rfl

/-- The scan over numbers below the size. -/
theorem scan (h : Marks size marked flags) (turns : ℕ) {i : ℤ} (hpos : 0 ≤ i)
    (hturns : i + turns ≤ size) :
    (∃ j, FlagTable.scan flags turns i = some (some j) ∧
        IsLeast {k | i ≤ k ∧ k < i + turns ∧ k ∉ marked} j) ∨
      FlagTable.scan flags turns i = some none ∧ ∀ k, i ≤ k → k < i + turns → k ∈ marked := by
  induction turns generalizing i with
  | zero => exact .inr ⟨rfl, fun k hk hlt => absurd hlt (by push_cast; omega)⟩
  | succ turns ih =>
    push_cast at hturns ⊢
    obtain ⟨flag, hget, hflag⟩ := h.get? hpos (by omega)
    unfold FlagTable.scan
    rw [hget, Option.bind_eq_bind, Option.bind_some]
    cases flag with
    | false =>
      refine .inl ⟨i, rfl, ⟨le_refl i, by omega, fun hi => ?_⟩, fun k hk => hk.1⟩
      exact Bool.false_ne_true (hflag.mpr hi)
    | true =>
      -- the number passed is marked, so the least unmarked one is the same without it
      have hi : i ∈ marked := hflag.mp rfl
      have hrange : ∀ k, i ≤ k → k ∉ marked → i + 1 ≤ k := fun k hk hfree => by
        have hne : k ≠ i := fun heq => hfree (heq ▸ hi)
        omega
      rw [if_pos rfl]
      cases ih (i := i + 1) (by omega) (by omega) with
      | inl hfound =>
        obtain ⟨j, hj, ⟨hle, hlt, hfree⟩, hleast⟩ := hfound
        refine .inl ⟨j, hj, ⟨by omega, by omega, hfree⟩, fun k hk => ?_⟩
        exact hleast ⟨hrange k hk.1 hk.2.2, by have := hk.2.1; omega, hk.2.2⟩
      | inr hfull =>
        refine .inr ⟨hfull.1, fun k hk hlt => ?_⟩
        by_contra hfree
        exact hfree (hfull.2 k (hrange k hk hfree) (by omega))

end Marks

end FlagTable
