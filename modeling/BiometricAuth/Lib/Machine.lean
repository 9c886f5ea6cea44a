import Mathlib

/-!
# Step machines

A system that takes one labelled step at a time is a function
`step : σ → α → Option σ`; a label that is not enabled gives `none`. `run` takes
a list of labels one after the other. The module has the induction rules the
runs of such a system are reasoned about with:

* `run_invariant` — what every step preserves holds at the end of every run;
* `Along.run_invariant` — the same when only the steps that meet a condition
  `C` preserve it, for the runs all of whose steps do (`Along C`);
* `run_length_le` — a bound on the length of the runs whose steps bring a measure down;
* `always_iff_along` — when a step keeps an invariant exactly if it meets `C`,
  the invariant holds in every state of a run exactly if every step meets `C`;
* `along_of_invariant` — what an invariant says of every step holds along every run.
-/

namespace Machine

variable {σ α : Type*} (step : σ → α → Option σ)

/-- The state after a list of steps. -/
def run (s : σ) (as : List α) : Option σ := as.foldlM step s

@[simp] theorem run_nil (s : σ) : run step s [] = some s := rfl

@[simp] theorem run_cons (s : σ) (a : α) (as : List α) :
    run step s (a :: as) = (step s a).bind fun s' => run step s' as := rfl

theorem run_append (s : σ) (as bs : List α) :
    run step s (as ++ bs) = (run step s as).bind fun s' => run step s' bs := by
  simp [run, List.foldlM_append, Option.bind_eq_bind]

/-- Every step of the run from `s` meets `C` in the state it is taken in. -/
def Along (C : σ → α → Prop) : σ → List α → Prop
  | _, [] => True
  | s, a :: as => C s a ∧ ∀ s', step s a = some s' → Along C s' as

/-- `P` holds in every state of the run from `s`. -/
def Always (P : σ → Prop) : σ → List α → Prop
  | s, [] => P s
  | s, a :: as => P s ∧ ∀ s', step s a = some s' → Always P s' as

variable {step}

/-- An invariant of the steps that meet `C` is an invariant of the runs along
which every step does. -/
theorem Along.run_invariant {P : σ → Prop} {C : σ → α → Prop}
    (hstep : ∀ s a s', P s → C s a → step s a = some s' → P s')
    {s s' : σ} {as : List α} (hC : Along step C s as) (hs : P s)
    (hrun : run step s as = some s') : P s' := by
  induction as generalizing s with
  | nil =>
    obtain rfl := Option.some.inj hrun
    exact hs
  | cons a as ih =>
    obtain ⟨s₁, hs₁, hrun⟩ := Option.bind_eq_some_iff.mp hrun
    exact ih (hC.2 s₁ hs₁) (hstep s a s₁ hs hC.1 hs₁) hrun

/-- A first step that is known. -/
theorem Along.cons {C : σ → α → Prop} {s s' : σ} {a : α} {as : List α} (ha : C s a)
    (hstep : step s a = some s') (h : Along step C s' as) : Along step C s (a :: as) := by
  refine ⟨ha, fun s₁ hs₁ => ?_⟩
  obtain rfl := Option.some.inj (hstep.symm.trans hs₁)
  exact h

theorem Along.imp {C D : σ → α → Prop} (hCD : ∀ s a, C s a → D s a) {s : σ} {as : List α}
    (h : Along step C s as) : Along step D s as := by
  induction as generalizing s with
  | nil => trivial
  | cons a as ih => exact ⟨hCD s a h.1, fun s₁ hs₁ => ih (h.2 s₁ hs₁)⟩

/-- It holds in every state of such a run, not only the last. -/
theorem Along.always {P : σ → Prop} {C : σ → α → Prop}
    (hstep : ∀ s a s', P s → C s a → step s a = some s' → P s')
    {s : σ} {as : List α} (hC : Along step C s as) (hs : P s) : Always step P s as := by
  induction as generalizing s with
  | nil => exact hs
  | cons a as ih => exact ⟨hs, fun s₁ hs₁ => ih (hC.2 s₁ hs₁) (hstep s a s₁ hs hC.1 hs₁)⟩

theorem Always.mono {P Q : σ → Prop} (hPQ : ∀ s, P s → Q s) {s : σ} {as : List α}
    (h : Always step P s as) : Always step Q s as := by
  induction as generalizing s with
  | nil => exact hPQ s h
  | cons a as ih => exact ⟨hPQ s h.1, fun s₁ hs₁ => ih (h.2 s₁ hs₁)⟩

/-- What holds always holds at the end. -/
theorem Always.run {P : σ → Prop} {s s' : σ} {as : List α} (h : Always step P s as)
    (hrun : run step s as = some s') : P s' := by
  induction as generalizing s with
  | nil =>
    obtain rfl := Option.some.inj hrun
    exact h
  | cons a as ih =>
    obtain ⟨s₁, hs₁, hrun⟩ := Option.bind_eq_some_iff.mp hrun
    exact ih (h.2 s₁ hs₁) hrun

/-- What holds of every step holds along every run. -/
theorem along_of_forall {C : σ → α → Prop} (hC : ∀ s a, C s a) (s : σ) (as : List α) :
    Along step C s as := by
  induction as generalizing s with
  | nil => trivial
  | cons a as ih => exact ⟨hC s a, fun s' _ => ih s'⟩

/-- What an invariant of the steps with labels in `D` says of these steps holds along their runs. -/
theorem along_of_invariant {I : σ → Prop} {C : σ → α → Prop} {D : α → Prop}
    (hC : ∀ s a, I s → D a → C s a) (hstep : ∀ s a s', I s → D a → step s a = some s' → I s')
    {s : σ} (hs : I s) {as : List α} (hD : ∀ a ∈ as, D a) : Along step C s as := by
  induction as generalizing s with
  | nil => trivial
  | cons a as ih =>
    obtain ⟨ha, hD⟩ := List.forall_mem_cons.mp hD
    exact ⟨hC s a hs ha, fun s₁ hs₁ => ih (hstep s a s₁ hs ha hs₁) hD⟩

/-- An invariant of every step is an invariant of every run. -/
theorem run_invariant {P : σ → Prop} (hstep : ∀ s a s', P s → step s a = some s' → P s')
    {s s' : σ} {as : List α} (hs : P s) (hrun : run step s as = some s') : P s' :=
  (along_of_forall (fun _ _ => trivial) s as).run_invariant (C := fun _ _ => True)
    (fun s a s' hs _ => hstep s a s' hs) hs hrun

/-- A run of steps each of which brings `μ` down is no longer than `μ` was. -/
theorem run_length_le {C : α → Prop} {μ : σ → ℕ}
    (hμ : ∀ s a s', C a → step s a = some s' → μ s' < μ s) {s s' : σ} {as : List α}
    (hC : ∀ a ∈ as, C a) (hrun : run step s as = some s') : as.length + μ s' ≤ μ s := by
  induction as generalizing s with
  | nil =>
    obtain rfl := Option.some.inj hrun
    simp
  | cons a as ih =>
    obtain ⟨s₁, hs₁, hrun⟩ := Option.bind_eq_some_iff.mp hrun
    have hlt := hμ s a s₁ (hC a List.mem_cons_self) hs₁
    have hle := ih (fun b hb => hC b (List.mem_cons_of_mem a hb)) hrun
    rw [List.length_cons]
    omega

/-- When a step keeps `P` exactly if it meets `C`, given an invariant `I`, a run keeps `P`
throughout exactly if all its steps meet `C`. -/
theorem always_iff_along_of_invariant {I P : σ → Prop} {C : σ → α → Prop}
    (hdisabled : ∀ s a, step s a = none → C s a)
    (hinv : ∀ s a s', I s → step s a = some s' → I s')
    (hstep : ∀ s a s', I s → P s → step s a = some s' → (P s' ↔ C s a)) {s : σ} (hI : I s)
    (hs : P s) (as : List α) : Always step P s as ↔ Along step C s as := by
  induction as generalizing s with
  | nil => exact ⟨fun _ => trivial, fun _ => hs⟩
  | cons a as ih =>
    cases hs₁ : step s a with
    | none =>
      -- the action is disabled, so there is no next state
      refine ⟨fun _ => ⟨hdisabled s a hs₁, fun s' hs' => ?_⟩, fun _ => ⟨hs, fun s' hs' => ?_⟩⟩ <;>
        exact nomatch hs₁.symm.trans hs'
    | some s₁ =>
      -- the next state is the only one
      have hnext : ∀ {Q : σ → Prop}, (∀ s', step s a = some s' → Q s') ↔ Q s₁ := fun {Q} =>
        ⟨fun h => h s₁ hs₁, fun h s' hs' => by rwa [← Option.some.inj (hs₁.symm.trans hs')]⟩
      have hI₁ := hinv s a s₁ hI hs₁
      simp only [Always, Along, hnext, ← hstep s a s₁ hI hs hs₁]
      constructor
      · -- the next state has `P`, as the run begins there
        rintro ⟨-, h⟩
        have hP₁ : P s₁ := by
          cases as with
          | nil => exact h
          | cons b as => exact h.1
        exact ⟨hP₁, (ih hI₁ hP₁).mp h⟩
      · -- and the step has met `C`
        rintro ⟨hP₁, h⟩
        exact ⟨hs, (ih hI₁ hP₁).mpr h⟩

/-- The same for steps that are always enabled, without an invariant. -/
theorem always_iff_along {P : σ → Prop} {C : σ → α → Prop}
    (htotal : ∀ s a, ∃ s', step s a = some s')
    (hstep : ∀ s a s', P s → step s a = some s' → (P s' ↔ C s a)) {s : σ} (hs : P s)
    (as : List α) : Always step P s as ↔ Along step C s as := by
  refine always_iff_along_of_invariant (I := fun _ => True) (fun s a hnone => ?_)
    (fun _ _ _ _ _ => trivial) (fun s a s' _ => hstep s a s') trivial hs as
  obtain ⟨s', hs'⟩ := htotal s a
  exact nomatch hnone.symm.trans hs'

/-- When the steps that meet `C` keep an invariant `Q`, which implies `P`, and the others take the
system from `Q` out of `P`, a run keeps `P` throughout exactly if all its steps meet `C`. -/
theorem always_iff_along_of_keeps {P Q : σ → Prop} {C : σ → α → Prop} (hP : ∀ s, Q s → P s)
    (hdisabled : ∀ s a, step s a = none → C s a)
    (hkeeps : ∀ s a s', Q s → C s a → step s a = some s' → Q s')
    (hbreaks : ∀ s a s', Q s → ¬ C s a → step s a = some s' → ¬ P s') {s : σ} (hs : Q s)
    (as : List α) : Always step P s as ↔ Along step C s as := by
  refine ⟨fun h => ?_, fun h => (h.always hkeeps hs).mono hP⟩
  induction as generalizing s with
  | nil => trivial
  | cons a as ih =>
    cases hs₁ : step s a with
    | none => exact ⟨hdisabled s a hs₁, fun s' hs' => nomatch hs₁.symm.trans hs'⟩
    | some s₁ =>
      have htail := h.2 s₁ hs₁
      have hP₁ : P s₁ := by
        cases as with
        | nil => exact htail
        | cons b as => exact htail.1
      have hC : C s a := by
        by_contra hC
        exact hbreaks s a s₁ hs hC hs₁ hP₁
      refine .cons hC hs₁ (ih (hkeeps s a s₁ hs hC hs₁) htail)

end Machine
