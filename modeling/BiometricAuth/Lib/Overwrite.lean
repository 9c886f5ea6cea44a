import Mathlib.Data.List.Sublists

/-!
# Overwriting

A `Write` puts fixed values at some places of a table, whatever was there before. Writes that follow
each other are one write again, in which the last value wins (`all`).

So a script of writes can be run again after it was broken off: whatever part of it has been done,
the table ends as if it had been run once (`all_apply_of_subset`).
-/

namespace Overwrite

variable {ι α : Type*}

/-- The values to be put; `none` where nothing is written. -/
abbrev Write (ι α : Type*) := ι → Option α

/-- The table after the write. -/
def Write.apply (w : Write ι α) (c : ι → α) : ι → α := fun i => (w i).getD (c i)

/-- `w`, then `w'`. -/
def Write.after (w' w : Write ι α) : Write ι α := fun i => (w' i).or (w i)

/-- One write after the other. -/
def all : List (Write ι α) → Write ι α
  | [] => fun _ => none
  | w :: ws => (all ws).after w

variable {w w' : Write ι α} {ws ws' : List (Write ι α)} {c : ι → α} {i : ι} {a : α}

theorem apply_of_none (h : w i = none) : w.apply c i = c i := by
  rw [Write.apply, h, Option.getD_none]

theorem apply_of_some (h : w i = some a) : w.apply c i = a := by
  rw [Write.apply, h, Option.getD_some]

theorem apply_after : (w'.after w).apply c = w'.apply (w.apply c) := by
  funext i
  simp only [Write.apply, Write.after]
  cases w' i <;> rfl

@[simp] theorem all_nil_apply : (all []).apply c = c := rfl

@[simp] theorem all_cons_apply : (all (w :: ws)).apply c = (all ws).apply (w.apply c) := apply_after

/-- A script in two parts. -/
theorem all_append : all (ws ++ ws') = (all ws').after (all ws) := by
  induction ws with
  | nil =>
    funext i
    exact Option.or_none.symm
  | cons w ws ih =>
    funext i
    rw [List.cons_append, all, ih, all]
    exact Option.or_assoc

/-- A script in many parts. -/
theorem all_flatMap {β : Type*} (f : β → List (Write ι α)) (bs : List β) :
    all (bs.flatMap f) = all (bs.map fun b => all (f b)) := by
  induction bs with
  | nil => rfl
  | cons b bs ih => rw [List.flatMap_cons, all_append, ih, List.map_cons, all]

/-- A write that covers the one before it leaves nothing of it. -/
theorem after_eq_of_covers (h : ∀ i, w' i = none → w i = none) : w'.after w = w' := by
  funext i
  rw [Write.after]
  cases hi : w' i with
  | none => rw [h i hi, Option.or_none]
  | some a => rfl

/-- Nothing is written where none of the writes has a value. -/
theorem all_eq_none_iff : all ws i = none ↔ ∀ w ∈ ws, w i = none := by
  induction ws with
  | nil => simp [all]
  | cons w ws ih =>
    rw [List.forall_mem_cons, all, Write.after, Option.or_eq_none_iff, ih, and_comm]

/-- The last of the writes that have a value wins. -/
theorem all_eq_some_of_last (h : w i = some a) (hlast : ∀ w' ∈ ws', w' i = none) :
    all (ws ++ w :: ws') i = some a := by
  rw [all_append, Write.after, all, Write.after, all_eq_none_iff.mpr hlast, h]
  rfl

/-- Where the writes agree it does not matter which of them wins. -/
theorem all_eq_some_of_agree (hsome : ∃ w ∈ ws, w i ≠ none)
    (hagree : ∀ w ∈ ws, ∀ b, w i = some b → b = a) : all ws i = some a := by
  have hne : all ws i ≠ none := by
    obtain ⟨w, hw, hwi⟩ := hsome
    exact fun h => hwi (all_eq_none_iff.mp h w hw)
  obtain ⟨b, hb⟩ := Option.ne_none_iff_exists'.mp hne
  rw [hb]
  -- the value comes from one of them
  clear hne hsome
  induction ws with
  | nil => cases hb
  | cons w ws ih =>
    obtain ⟨hw, hws⟩ := List.forall_mem_cons.mp hagree
    rw [all, Write.after] at hb
    rcases Option.or_eq_some_iff.mp hb with h | ⟨-, h⟩
    · exact ih hws h
    · rw [hw b h]

/-- **A script can be run again.** After any of its writes, in any order and number, the script ends
as it would have ended at once. -/
theorem all_apply_of_subset (h : ws ⊆ ws') :
    (all ws').apply ((all ws).apply c) = (all ws').apply c := by
  rw [← apply_after, after_eq_of_covers fun i hnone =>
    all_eq_none_iff.mpr fun w hw => all_eq_none_iff.mp hnone w (h hw)]

end Overwrite
