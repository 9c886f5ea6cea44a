import BiometricAuth.Lib.Machine

/-!
# Forward simulations

A machine whose steps are a function is compared with a more abstract system whose steps are a
relation `next`, and which may take several of them, or none, where the machine takes one. Some of
the labels of either system can be seen from outside. `Simulates` says that every step of the
machine is matched by steps that show the same; `Simulates.run` says so of whole runs.
-/

namespace Machine

variable {σ α τ β γ : Type*}

/-- Steps of a relation, one after the other. -/
inductive Steps (next : τ → β → τ → Prop) : τ → List β → τ → Prop
  | nil (t : τ) : Steps next t [] t
  | cons {t t₁ t₂ : τ} {b : β} {bs : List β} :
    next t b t₁ → Steps next t₁ bs t₂ → Steps next t (b :: bs) t₂

section Steps

variable {next : τ → β → τ → Prop} {t t₁ t₂ : τ} {b : β} {bs bs' : List β}

theorem Steps.single (h : next t b t₁) : Steps next t [b] t₁ := .cons h (.nil _)

theorem Steps.append (h : Steps next t bs t₁) (h' : Steps next t₁ bs' t₂) :
    Steps next t (bs ++ bs') t₂ := by
  induction h with
  | nil => exact h'
  | cons hnext _ ih => exact .cons hnext (ih h')

end Steps

variable {step : σ → α → Option σ} {next : τ → β → τ → Prop} {seen : α → Option γ}
  {seen' : β → Option γ} {R : σ → τ → Prop}

/-- Where `R` holds, every step of the machine is matched by steps of the abstract system that show
the same and after which `R` holds again. -/
def Simulates (step : σ → α → Option σ) (next : τ → β → τ → Prop) (seen : α → Option γ)
    (seen' : β → Option γ) (R : σ → τ → Prop) : Prop :=
  ∀ s t a s', R s t → step s a = some s' →
    ∃ bs t', Steps next t bs t' ∧ R s' t' ∧ bs.filterMap seen' = (seen a).toList

/-- Every run of the machine is matched by steps of the abstract system that show the same. -/
theorem Simulates.run (h : Simulates step next seen seen' R) {s s' : σ} {t : τ} {as : List α}
    (hR : R s t) (hrun : run step s as = some s') :
    ∃ bs t', Steps next t bs t' ∧ R s' t' ∧ bs.filterMap seen' = as.filterMap seen := by
  induction as generalizing s t with
  | nil =>
    obtain rfl := Option.some.inj hrun
    exact ⟨[], t, .nil t, hR, rfl⟩
  | cons a as ih =>
    obtain ⟨s₁, hs₁, hrun⟩ := Option.bind_eq_some_iff.mp hrun
    obtain ⟨bs, t₁, hsteps, hR₁, hseen⟩ := h s t a s₁ hR hs₁
    obtain ⟨bs', t', hsteps', hR', hseen'⟩ := ih hR₁ hrun
    refine ⟨bs ++ bs', t', hsteps.append hsteps', hR', ?_⟩
    rw [List.filterMap_append, hseen, hseen', List.filterMap_cons]
    cases seen a <;> rfl

end Machine
