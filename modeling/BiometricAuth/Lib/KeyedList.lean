import Mathlib.Data.List.Nodup
import Mathlib.Logic.Function.Basic

/-!
# Lists with keys

A list whose entries have keys is read as a partial map: `lookup` gives the first entry with a key.
Deleting entries by their keys restricts the map, changing entries under their keys changes its
values, and appending an entry with a new key updates it at that key.
-/

namespace KeyedList

variable {α κ : Type*} [DecidableEq κ] (key : α → κ) {l : List α} {a : α} {k : κ}

/-- The first entry with the key `k`. -/
def lookup (l : List α) (k : κ) : Option α := l.find? fun a => key a = k

@[simp] theorem lookup_nil : lookup key [] k = none := rfl

variable {key}

theorem lookup_eq_none_iff : lookup key l k = none ↔ ∀ a ∈ l, key a ≠ k := by
  simp [lookup, List.find?_eq_none]

theorem mem_of_lookup (h : lookup key l k = some a) : a ∈ l ∧ key a = k :=
  ⟨List.mem_of_find?_eq_some h, by simpa using List.find?_some h⟩

/-- Where no two entries have the same key, every entry is found. -/
theorem lookup_eq_some_iff (hkeys : (l.map key).Nodup) :
    lookup key l k = some a ↔ a ∈ l ∧ key a = k := by
  refine ⟨mem_of_lookup, fun ⟨ha, hk⟩ => ?_⟩
  obtain ⟨b, hb⟩ : ∃ b, lookup key l k = some b := by
    refine Option.ne_none_iff_exists'.mp fun hnone => ?_
    exact lookup_eq_none_iff.mp hnone a ha hk
  obtain ⟨hmem, hkey⟩ := mem_of_lookup hb
  rw [hb, List.inj_on_of_nodup_map hkeys hmem ha (hkey.trans hk.symm)]

/-- And it is the only one with its key. -/
theorem filter_eq_singleton (hkeys : (l.map key).Nodup) (ha : a ∈ l) :
    l.filter (fun b => key b = key a) = [a] := by
  refine List.perm_singleton.mp ((List.perm_ext_iff_of_nodup ?_ (List.nodup_singleton a)).mpr ?_)
  · exact (List.Nodup.of_map key hkeys).filter _
  · intro b
    rw [List.mem_filter, List.mem_singleton, decide_eq_true_eq]
    constructor
    · exact fun ⟨hb, hkey⟩ => List.inj_on_of_nodup_map hkeys hb ha hkey
    · rintro rfl
      exact ⟨ha, rfl⟩

/-- An entry with a new key. -/
theorem lookup_append_singleton (hnew : ∀ b ∈ l, key b ≠ key a) :
    lookup key (l ++ [a]) = Function.update (lookup key l) (key a) (some a) := by
  funext k
  by_cases hk : k = key a
  · subst hk
    rw [Function.update_self, lookup, List.find?_append,
      show l.find? (fun b => key b = key a) = none from lookup_eq_none_iff.mpr hnew]
    simp
  · have hne : ¬ key a = k := fun h => hk h.symm
    rw [Function.update_of_ne hk, lookup, List.find?_append]
    simp [lookup, hne]

/-- Entries that are kept by their keys. -/
theorem lookup_filter {p : α → Bool} {q : κ → Prop} [DecidablePred q]
    (hp : ∀ a, p a = true ↔ q (key a)) :
    lookup key (l.filter p) k = if q k then lookup key l k else none := by
  induction l with
  | nil => simp
  | cons a l ih =>
    rw [List.filter_cons]
    by_cases hk : key a = k
    · subst hk
      by_cases hq : q (key a)
      · simp [(hp a).mpr hq, hq, lookup]
      · simp only [mt (hp a).mp hq, if_neg hq] at ih ⊢
        exact ih
    · have hcons : lookup key (a :: l) k = lookup key l k := by simp [lookup, hk]
      rw [hcons, ← ih]
      split
      · simp [lookup, hk]
      · rfl

/-- Entries that are changed and keep their keys. -/
theorem lookup_map {f : α → α} (hf : ∀ a, key (f a) = key a) :
    lookup key (l.map f) k = (lookup key l k).map f := by
  rw [lookup, lookup, List.find?_map]
  congr 2
  funext a
  simp [hf]

end KeyedList
