import Mathlib

/-!
# Sorted selections and grouping by a key

A reader that walks over sorted rows and starts a new group whenever the key
changes computes, on paper, the list of distinct keys with the rows of each key
below it. This module fixes that list (`groups`) for an arbitrary row type `α`
and key type `κ`, and gives the facts a streaming implementation is compared
with:

* `groups_append_new` / `groups_append_last` — what one more row does to the
  grouped list, depending on whether its key has been seen;
* `groups_flatMap` — grouping loses and invents no row;
* `groups_map` — rows and keys that change together keep their groups;
* `keys_pairwise_lt` — on rows sorted by key the group keys increase strictly;
* `filter_insertionSort` — dropping rows before or after a stable sort makes no
  difference.
-/

namespace Grouping

variable {α κ : Type*}

section Keys

variable [DecidableEq κ] (key : α → κ)

/-- The distinct keys of `l`, in order of first appearance. -/
def keys (l : List α) : List κ := (l.map key).eraseDups

/-- The rows of `l` below each distinct key, in order. -/
def groups (l : List α) : List (κ × List α) :=
  (keys key l).map fun k => (k, l.filter fun a => key a = k)

@[simp] theorem keys_nil : keys key ([] : List α) = [] := rfl

@[simp] theorem groups_nil : groups key ([] : List α) = [] := rfl

@[simp] theorem mem_keys {l : List α} {k : κ} : k ∈ keys key l ↔ ∃ a ∈ l, key a = k := by
  simp [keys]

theorem keys_append_singleton (l : List α) (a : α) :
    keys key (l ++ [a]) = if key a ∈ l.map key then keys key l else keys key l ++ [key a] := by
  unfold keys
  rw [List.map_append, List.map_singleton, List.eraseDups_append]
  split
  · next h => simp [List.removeAll, show ∃ b ∈ l, key b = key a by simpa using h]
  · next h =>
    have h' : ¬ ∃ b ∈ l, key b = key a := by simpa using h
    simp [List.removeAll, h', List.eraseDups_cons]

theorem nodup_keys (l : List α) : (keys key l).Nodup := by
  induction l using List.reverseRecOn with
  | nil => simp
  | append_singleton l a ih =>
    rw [keys_append_singleton]
    split
    · exact ih
    · next h =>
      refine List.nodup_append.mpr ⟨ih, List.nodup_singleton _, ?_⟩
      intro k hk k' hk' heq
      rw [List.mem_singleton] at hk'
      subst heq hk'
      exact h (by simpa using hk)

/-- There are at most as many keys as elements. -/
theorem keys_length_le (l : List α) : (keys key l).length ≤ l.length := by
  have hsub : keys key l ⊆ l.map key := fun k hk => by simpa using hk
  have hle := ((nodup_keys key l).subperm hsub).length_le
  rwa [List.length_map] at hle

@[simp] theorem groups_map_fst (l : List α) : (groups key l).map Prod.fst = keys key l := by
  simp [groups, Function.comp_def]

theorem mem_groups {l : List α} {g : κ × List α} :
    g ∈ groups key l ↔ g.1 ∈ keys key l ∧ g.2 = l.filter fun a => key a = g.1 := by
  obtain ⟨k, rows⟩ := g
  simp only [groups, List.mem_map, Prod.mk.injEq]
  constructor
  · rintro ⟨k', hk', rfl, rfl⟩
    exact ⟨hk', rfl⟩
  · rintro ⟨hk, hrows⟩
    exact ⟨k, hk, rfl, hrows.symm⟩

/-- No group is empty. -/
theorem ne_nil_of_mem_groups {l : List α} {g : κ × List α} (h : g ∈ groups key l) :
    g.2 ≠ [] := by
  obtain ⟨hk, hrows⟩ := (mem_groups key).mp h
  obtain ⟨a, ha, hka⟩ := (mem_keys key).mp hk
  rw [hrows]
  exact List.ne_nil_of_mem (List.mem_filter.mpr ⟨ha, by simpa using hka⟩)

/-- A row with a key not seen so far opens a group of its own. -/
theorem groups_append_new {l : List α} {a : α} (h : ∀ b ∈ l, key b ≠ key a) :
    groups key (l ++ [a]) = groups key l ++ [(key a, [a])] := by
  have hmem : key a ∉ l.map key := by simpa using h
  have hnil : l.filter (fun b => key b = key a) = [] := by simpa using h
  unfold groups
  rw [keys_append_singleton, if_neg hmem, List.map_append, List.map_singleton]
  congr 1
  · refine List.map_congr_left fun k hk => ?_
    have hne : key a ≠ k := by
      obtain ⟨b, hb, rfl⟩ := (mem_keys key).mp hk
      exact fun h' => h b hb h'.symm
    simp [List.filter_append, hne]
  · simp [List.filter_append, hnil]

/-- A row with the key of the last group joins that group. -/
theorem groups_append_last {l : List α} {a : α} {gs : List (κ × List α)} {rows : List α}
    (h : groups key l = gs ++ [(key a, rows)]) :
    groups key (l ++ [a]) = gs ++ [(key a, rows ++ [a])] := by
  -- the key is the last one, and no new one comes
  have hkeys : keys key l = gs.map Prod.fst ++ [key a] := by
    rw [← groups_map_fst, h]; simp
  have hmem : key a ∈ l.map key := by
    have : key a ∈ keys key l := by rw [hkeys]; simp
    simpa using this
  have hnodup := nodup_keys key l
  rw [hkeys] at hnodup
  -- no group before has it
  have hfresh : ∀ g ∈ gs, g.1 ≠ key a := fun g hg heq =>
    (List.nodup_append.mp hnodup).2.2 g.1 (List.mem_map_of_mem hg) _
      (List.mem_singleton.mpr rfl) heq
  -- each group has the rows of its key
  have hgs : ∀ g ∈ gs ++ [(key a, rows)], g.2 = l.filter fun b => key b = g.1 := by
    intro g hg
    rw [← h] at hg
    exact ((mem_groups key).mp hg).2
  unfold groups
  rw [keys_append_singleton, if_pos hmem, hkeys, List.map_append, List.map_map,
    List.map_singleton]
  congr 1
  · -- the groups before do not get the row
    conv_rhs => rw [← List.map_id gs]
    refine List.map_congr_left fun g hg => ?_
    have hrows := hgs g (List.mem_append_left _ hg)
    simp [List.filter_append, (hfresh g hg).symm, ← hrows]
  · -- the last one does
    have hrows := hgs (key a, rows) (by simp)
    simp only at hrows
    simp [List.filter_append, ← hrows]

/-- The last group of a nonempty list whose equal keys are adjacent is the
group of its last row. -/
theorem groups_eq_append_of_sorted [LinearOrder κ] {l : List α} {a : α}
    (hsorted : (l ++ [a]).Pairwise fun x y => key x ≤ key y) :
    ∃ gs rows, groups key (l ++ [a]) = gs ++ [(key a, rows)] := by
  induction l using List.reverseRecOn generalizing a with
  | nil => exact ⟨[], [a], by simpa using groups_append_new (l := []) (a := a) key (by simp)⟩
  | append_singleton l b ih =>
    have hl := List.pairwise_append.mp hsorted
    obtain ⟨gs, rows, hgs⟩ := ih hl.1
    by_cases heq : key b = key a
    · rw [heq] at hgs
      exact ⟨gs, rows ++ [a], groups_append_last key hgs⟩
    · have hfresh : ∀ c ∈ l ++ [b], key c ≠ key a := by
        intro c hc hca
        have hba : key b ≤ key a := hl.2.2 b (by simp) a (by simp)
        rcases List.mem_append.mp hc with hc | hc
        · have hcb : key c ≤ key b := (List.pairwise_append.mp hl.1).2.2 c hc b (by simp)
          exact heq (le_antisymm hba (hca ▸ hcb))
        · rw [List.mem_singleton] at hc
          subst hc
          exact heq hca
      exact ⟨groups key (l ++ [b]), [a], groups_append_new key hfresh⟩

/-- On rows sorted by key, putting the groups back together gives the rows:
none is lost, none is invented, and the order is kept. -/
theorem groups_flatMap [LinearOrder κ] {l : List α}
    (hsorted : l.Pairwise fun x y => key x ≤ key y) : (groups key l).flatMap Prod.snd = l := by
  induction l using List.reverseRecOn with
  | nil => rfl
  | append_singleton l a ih =>
    have hl := List.pairwise_append.mp hsorted
    by_cases hseen : ∃ b ∈ l, key b = key a
    · -- `a` joins the last group, the group of the row before it
      obtain ⟨c, hc, hca⟩ := hseen
      rcases List.eq_nil_or_concat l with rfl | ⟨l', b, rfl⟩
      · simp at hc
      rw [List.concat_eq_append] at *
      have hba : key b = key a := by
        have h₁ : key b ≤ key a := hl.2.2 b (by simp) a (by simp)
        rcases List.mem_append.mp hc with hc | hc
        · exact le_antisymm h₁ (hca ▸ (List.pairwise_append.mp hl.1).2.2 c hc b (by simp))
        · rw [List.mem_singleton] at hc
          exact hc ▸ hca
      obtain ⟨gs, rows, hgs⟩ := groups_eq_append_of_sorted key hl.1
      have ih := ih hl.1
      rw [hgs] at ih
      rw [hba] at hgs
      rw [groups_append_last key hgs, ← ih]
      simp
    · push Not at hseen
      rw [groups_append_new key hseen, List.flatMap_append, ih hl.1]
      simp

/-! ### Renaming rows and keys -/

section Map

variable {β ν : Type*} [DecidableEq ν] {key} {key' : β → ν} {f : α → β} {g : κ → ν}

/-- When rows change together with their keys, and different keys stay different, so do the
distinct keys. -/
theorem keys_map {l : List α} (hkey : ∀ a ∈ l, key' (f a) = g (key a))
    (hg : ∀ a ∈ l, ∀ b ∈ l, g (key a) = g (key b) → key a = key b) :
    keys key' (l.map f) = (keys key l).map g := by
  induction l using List.reverseRecOn with
  | nil => rfl
  | append_singleton l a ih =>
    have ih := ih (fun b hb => hkey b (List.mem_append_left _ hb)) fun b hb c hc =>
      hg b (List.mem_append_left _ hb) c (List.mem_append_left _ hc)
    have hseen : key' (f a) ∈ (l.map f).map key' ↔ key a ∈ l.map key := by
      simp only [List.mem_map, exists_exists_and_eq_and]
      refine exists_congr fun b => and_congr_right fun hb => ?_
      rw [hkey b (List.mem_append_left _ hb), hkey a (by simp)]
      exact ⟨hg b (List.mem_append_left _ hb) a (by simp), congrArg g⟩
    rw [List.map_append, List.map_singleton, keys_append_singleton, keys_append_singleton, ih]
    by_cases h : key a ∈ l.map key
    · rw [if_pos (hseen.mpr h), if_pos h]
    · rw [if_neg (mt hseen.mp h), if_neg h, List.map_append, hkey a (by simp)]
      rfl

/-- And so do the groups. -/
theorem groups_map {l : List α} (hkey : ∀ a ∈ l, key' (f a) = g (key a))
    (hg : ∀ a ∈ l, ∀ b ∈ l, g (key a) = g (key b) → key a = key b) :
    groups key' (l.map f) = (groups key l).map fun p => (g p.1, p.2.map f) := by
  rw [groups, groups, keys_map hkey hg, List.map_map, List.map_map]
  refine List.map_congr_left fun k hk => ?_
  obtain ⟨a, ha, rfl⟩ := (mem_keys key).mp hk
  have hrows : (l.map f).filter (fun b => key' b = g (key a)) =
      (l.filter fun b => key b = key a).map f := by
    rw [List.filter_map]
    congr 1
    refine List.filter_congr fun b hb => decide_eq_decide.mpr ?_
    rw [hkey b hb]
    exact ⟨hg b hb a ha, congrArg g⟩
  simp only [Function.comp_apply, hrows]

end Map

end Keys

/-- On rows sorted by key the group keys increase strictly. -/
theorem keys_pairwise_lt [DecidableEq κ] [LinearOrder κ] (key : α → κ) {l : List α}
    (hsorted : l.Pairwise fun x y => key x ≤ key y) : (keys key l).Pairwise (· < ·) := by
  induction l using List.reverseRecOn with
  | nil => simp
  | append_singleton l a ih =>
    have hl := List.pairwise_append.mp hsorted
    rw [keys_append_singleton]
    split
    · exact ih hl.1
    · next h =>
      refine List.pairwise_append.mpr ⟨ih hl.1, List.pairwise_singleton _ _, ?_⟩
      intro k hk k' hk'
      obtain ⟨b, hb, rfl⟩ := (mem_keys key).mp hk
      rw [List.mem_singleton] at hk'
      subst hk'
      refine lt_of_le_of_ne (hl.2.2 b hb a (by simp)) fun heq => h ?_
      exact List.mem_map.mpr ⟨b, hb, heq⟩

/-! ### Selecting from a sorted list -/

section Selection

variable (r : α → α → Prop) [DecidableRel r] [Std.Total r] [IsTrans α r]

omit [Std.Total r] in
private theorem filter_orderedInsert (p : α → Bool) (a : α) {l : List α} (hl : l.Pairwise r) :
    (l.orderedInsert r a).filter p =
      if p a then (l.filter p).orderedInsert r a else l.filter p := by
  induction l with
  | nil => by_cases hp : p a <;> simp [hp]
  | cons b l ih =>
    obtain ⟨hb, hl⟩ := List.pairwise_cons.mp hl
    by_cases hab : r a b
    · -- `a` goes in front of `b`, hence in front of everything that is kept
      rw [List.orderedInsert_cons, if_pos hab, List.filter_cons]
      split
      · next hp =>
        have hle : ∀ c ∈ (b :: l).filter p, r a c := by
          intro c hc
          rcases List.mem_cons.mp (List.mem_filter.mp hc).1 with rfl | hc
          · exact hab
          · exact IsTrans.trans a b c hab (hb c hc)
        cases hf : (b :: l).filter p with
        | nil => rfl
        | cons c cs =>
          rw [hf] at hle
          rw [List.orderedInsert_cons, if_pos (hle c List.mem_cons_self)]
      · rfl
    · rw [List.orderedInsert_cons, if_neg hab, List.filter_cons, ih hl]
      by_cases hpa : p a <;> by_cases hpb : p b <;>
        simp [hpa, hpb, hab]

/-- Selecting rows commutes with a stable sort. -/
theorem filter_insertionSort (p : α → Bool) (l : List α) :
    (l.insertionSort r).filter p = (l.filter p).insertionSort r := by
  induction l with
  | nil => rfl
  | cons a l ih =>
    rw [List.insertionSort_cons,
      filter_orderedInsert r p a (List.pairwise_insertionSort r l), ih, List.filter_cons]
    split <;> simp

end Selection

end Grouping
