import Mathlib.Data.Set.Function
import Mathlib.Data.Set.Lattice

/-!
# Footprints

What a partial map holds outside a set of places. An update with a footprint is the same as before
outside of it (`Set.EqOn _ _ Sᶜ`); a list of updates is the same outside the union of their
footprints (`foldl_eqOn`), and what each of them is for is done when all are over (`foldl_done`).

`Keeps S c c'`: nothing that `c` holds outside `S` is missing or different in `c'`.
-/

namespace Footprint

/-! ### Lists of updates -/

section Updates

variable {σ ι α β : Type*} {look : σ → ι → α} {update : σ → β → σ}

/-- The footprint of a list of updates. -/
theorem foldl_eqOn {S : β → Set ι}
    (hupdate : ∀ s b, Set.EqOn (look (update s b)) (look s) (S b)ᶜ) (bs : List β) (s : σ) :
    Set.EqOn (look (bs.foldl update s)) (look s) {i | ∃ b ∈ bs, i ∈ S b}ᶜ := by
  induction bs generalizing s with
  | nil => exact Set.eqOn_refl _ _
  | cons b bs ih =>
    intro i hi
    have hhead : i ∉ S b := fun h => hi ⟨b, List.mem_cons_self, h⟩
    have htail : i ∉ {i | ∃ b ∈ bs, i ∈ S b} := by
      rintro ⟨b', hb', h⟩
      exact hi ⟨b', List.mem_cons_of_mem _ hb', h⟩
    calc look (bs.foldl update (update s b)) i
      _ = look (update s b) i := ih (update s b) htail
      _ = look s i := hupdate s b hhead

/-- Each update does its part and undoes no other's. -/
theorem foldl_done {P : σ → Prop} {Q : β → σ → Prop} {bs : List β}
    (hkeep : ∀ s, ∀ b ∈ bs, P s → P (update s b))
    (hdo : ∀ s, ∀ b ∈ bs, P s → Q b (update s b))
    (hundone : ∀ s b b', P s → Q b s → Q b (update s b')) {s : σ} (hs : P s) :
    ∀ b ∈ bs, Q b (bs.foldl update s) := by
  -- what is done in the beginning stays done, whether or not it is in the list
  have hstay : ∀ bs' : List β, (∀ b ∈ bs', b ∈ bs) → ∀ s b, P s → Q b s →
      Q b (bs'.foldl update s) := by
    intro bs' hsub
    induction bs' with
    | nil => exact fun _ _ _ h => h
    | cons b' bs' ih =>
      intro s b hs h
      exact ih (fun c hc => hsub c (List.mem_cons_of_mem _ hc)) _ b
        (hkeep s b' (hsub b' List.mem_cons_self) hs) (hundone s b b' hs h)
  have hall : ∀ bs' : List β, (∀ b ∈ bs', b ∈ bs) → ∀ s, P s → ∀ b ∈ bs',
      Q b (bs'.foldl update s) := by
    intro bs' hsub
    induction bs' with
    | nil => exact fun _ _ _ hb => nomatch hb
    | cons b' bs' ih =>
      intro s hs b hb
      have hmem := hsub b' List.mem_cons_self
      have hrest : ∀ c ∈ bs', c ∈ bs := fun c hc => hsub c (List.mem_cons_of_mem _ hc)
      rcases List.mem_cons.mp hb with rfl | hb
      · exact hstay bs' hrest _ b (hkeep s b hmem hs) (hdo s b hmem hs)
      · exact ih hrest _ (hkeep s b' hmem hs) b hb
  exact hall bs (fun _ hb => hb) s hs

end Updates

/-! ### What is kept -/

section Keeps

variable {ι α : Type*} {S T : Set ι} {c c' c₁ c₂ : ι → Option α}

/-- What `c` holds outside `S` is in `c'` as well. -/
def Keeps (S : Set ι) (c c' : ι → Option α) : Prop :=
  ∀ i ∉ S, ∀ a, c i = some a → c' i = some a

theorem Keeps.refl (S : Set ι) (c : ι → Option α) : Keeps S c c := fun _ _ _ h => h

/-- Whatever is the same outside `S` keeps the same. -/
theorem keeps_congr (h : Set.EqOn c₁ c₂ Sᶜ) : Keeps S c c₁ ↔ Keeps S c c₂ := by
  refine forall₂_congr fun i hi => ?_
  rw [h hi]

theorem Keeps.mono (hST : S ⊆ T) (h : Keeps S c c') : Keeps T c c' :=
  fun i hi => h i fun hS => hi (hST hS)

/-- What is kept anyway can be left out. -/
theorem keeps_union_iff (hT : ∀ i ∈ T, ∀ a, c i = some a → c' i = some a) :
    Keeps (S ∪ T) c c' ↔ Keeps S c c' := by
  refine ⟨fun h i hi => ?_, Keeps.mono Set.subset_union_left⟩
  by_cases hiT : i ∈ T
  · exact hT i hiT
  · exact h i fun hST => hST.elim hi hiT

end Keeps

end Footprint
