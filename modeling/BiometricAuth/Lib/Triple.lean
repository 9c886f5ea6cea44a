import BiometricAuth.Lib.Polling

/-!
# Triples for programs that sleep

`Proc.Runs P p Q I` is the triple of a program that is interrupted while it sleeps: started in
`P` it returns only with what `Q` says of its value and the state, and wherever else it ends,
still waiting or crashed, it does so in `I`. A schedule may end at any sleep, so `I` holds at every
sleep of the program.

It has one rule for each construct of the programs and one for the polling loop.
-/

namespace Process

variable {σ ε α β : Type}

namespace Proc

/-- Started in `P`, the program returns in `Q`, and waits or crashes in `I`. -/
def Runs (P : σ → Prop) (p : Proc σ ε α) (Q : α → σ → Prop) (I : σ → Prop) : Prop :=
  ∀ s es, P s →
    match p s es with
    | .ret a s' _ => Q a s'
    | .waiting s' | .crashed s' => I s'

namespace Runs

variable {P P' I I' : σ → Prop} {Q Q' : α → σ → Prop} {p : Proc σ ε α}

/-- The part of the triple about programs that return. -/
theorem of_ret (h : Runs P p Q I) {s s' : σ} {es es' : List (List ε)} {a : α} (hs : P s)
    (hp : p s es = .ret a s' es') : Q a s' := by
  have := h s es hs
  rwa [hp] at this

/-- Wherever the program ends, if the postcondition implies the condition of the sleeps. -/
theorem state (h : Runs P p Q I) (hQ : ∀ a s, Q a s → I s) {s : σ} (hs : P s)
    (es : List (List ε)) : I (p s es).state := by
  have := h s es hs
  cases hp : p s es with
  | ret a s' es' =>
    rw [hp] at this
    exact hQ a s' this
  | waiting s' | crashed s' =>
    rw [hp] at this
    exact this

theorem mono (h : Runs P p Q I) (hP : ∀ s, P' s → P s) (hQ : ∀ a s, Q a s → Q' a s)
    (hI : ∀ s, I s → I' s) : Runs P' p Q' I' := by
  intro s es hs
  have := h s es (hP s hs)
  cases hp : p s es with
  | ret a s' es' =>
    rw [hp] at this
    exact hQ a s' this
  | waiting s' | crashed s' =>
    rw [hp] at this
    exact hI s' this

theorem pre (h : Runs P p Q I) (hP : ∀ s, P' s → P s) : Runs P' p Q I :=
  h.mono hP (fun _ _ h => h) fun _ h => h

theorem pure {a : α} (h : ∀ s, P s → Q a s) : Runs P (pure a : Proc σ ε α) Q I :=
  fun s _ hs => h s hs

theorem bind {f : α → Proc σ ε β} {R : β → σ → Prop} (hp : Runs P p Q I)
    (hf : ∀ a, Runs (Q a) (f a) R I) : Runs P (p >>= f) R I := by
  intro s es hs
  have hps := hp s es hs
  rw [bind_apply]
  cases hret : p s es with
  | ret a s' es' =>
    rw [hret] at hps
    exact hf a s' es' hps
  | waiting s' | crashed s' => rwa [hret] at hps

theorem modify {f : σ → σ} {R : Unit → σ → Prop} (h : ∀ s, P s → R () (f s)) :
    Runs P (modify f : Proc σ ε Unit) R I :=
  fun s _ hs => h s hs

theorem modify_bind {g : σ → σ} {f : Unit → Proc σ ε β} {M : σ → Prop} {R : β → σ → Prop}
    (h : ∀ s, P s → M (g s)) (hf : Runs M (f ()) R I) : Runs P (Proc.modify g >>= f) R I :=
  fun s es hs => hf (g s) es (h s hs)

/-- What follows may know the state. -/
theorem get_bind {f : σ → Proc σ ε β} {R : β → σ → Prop}
    (hf : ∀ s, P s → Runs (· = s) (f s) R I) : Runs P (get >>= f) R I :=
  fun s es hs => hf s hs s es rfl

/-- What follows need not know the state. -/
theorem get_bind_of_forall {f : σ → Proc σ ε β} {R : β → σ → Prop} (hf : ∀ s, Runs P (f s) R I) :
    Runs P (get >>= f) R I := by
  refine get_bind fun s hs => (hf s).pre ?_
  rintro _ rfl
  exact hs

/-- What follows may know what the value is. -/
theorem ofOption_bind {o : Option α} {f : α → Proc σ ε β} {R : β → σ → Prop}
    (h : ∀ s, P s → I s) (hf : ∀ a, o = some a → Runs P (f a) R I) :
    Runs P (Proc.ofOption o >>= f) R I := by
  intro s es hs
  cases o with
  | none => exact h s hs
  | some a => exact hf a rfl s es hs

theorem map {f : α → β} {R : β → σ → Prop} (hp : Runs P p (fun a => R (f a)) I) :
    Runs P (f <$> p) R I :=
  hp.bind fun _ => pure fun _ hs => hs

theorem discard {R : σ → Prop} (hp : Runs P p (fun _ => R) I) :
    Runs P (discard p) (fun _ => R) I :=
  hp.bind fun _ => pure fun _ hs => hs

theorem ite {c : Prop} [Decidable c] {q : Proc σ ε α} (hp : c → Runs P p Q I)
    (hq : ¬ c → Runs P q Q I) : Runs P (if c then p else q) Q I := by
  split
  next hc => exact hp hc
  next hc => exact hq hc

end Runs

end Proc

/-! ### The polling loop -/

namespace Poller

variable {p : Poller σ ε} {P Q : σ → Prop}

/-- The events of one sleep, of which one crashes. -/
theorem deliverAll_error (hP : ∀ s e s', P s → p.deliver s e = some s' → P s') {s s' : σ}
    {evs : List ε} (hs : P s) (h : deliverAll p.deliver s evs = .error s') : P s' := by
  have hleads := deliverAll_leads hP hs evs
  rwa [h] at hleads

theorem drain_runs (hP : ∀ s e s', P s → p.deliver s e = some s' → P s') :
    Proc.Runs P p.drain (fun _ s => P s ∧ p.isDone s = true) P := by
  intro s es hs
  fun_induction p.drain s es with
  | case1 => exact hs
  | case2 s evs es s₁ hs₁ => exact deliverAll_error hP hs hs₁
  | case3 s evs es s₁ hs₁ hdone => exact ⟨deliverAll_invariant hP hs hs₁, hdone⟩
  | case4 s evs es s₁ hs₁ hdone ih => exact ih (deliverAll_invariant hP hs hs₁)

/-- What holds in the loop: `P` is what events and ticks preserve, and `Q` what events preserve
after the worker has been told to stop. The loop is left only when the operation is done. -/
theorem poll_runs (hP : ∀ s e s', P s → p.deliver s e = some s' → P s')
    (htick : ∀ s, P s → P (p.tick s)) (hstop : ∀ s, P s → p.isStopping s = true → Q (p.stop s))
    (hQ : ∀ s e s', Q s → p.deliver s e = some s' → Q s') :
    Proc.Runs P p.poll (fun exit s => (if exit = .stopped then Q s else P s) ∧ p.isDone s = true)
      fun s => P s ∨ Q s := by
  -- what holds while the worker is waited for
  have hdrain : ∀ exit (R : σ → Prop), (∀ s e s', R s → p.deliver s e = some s' → R s') →
      (∀ s, R s → P s ∨ Q s) → (∀ s, R s → if exit = .stopped then Q s else P s) →
      Proc.Runs R (p.drainTo exit)
        (fun exit s => (if exit = .stopped then Q s else P s) ∧ p.isDone s = true)
        fun s => P s ∨ Q s := fun exit R hR hI hpost =>
    ((drain_runs hR).mono (fun _ h => h) (fun _ _ h => h) hI).bind fun _ =>
      .pure fun s h => ⟨hpost s h.1, h.2⟩
  intro s es hs
  fun_induction p.poll s es with
  | case1 => exact .inl hs
  | case2 s evs es s₁ hs₁ => exact .inl (deliverAll_error hP hs hs₁)
  | case3 s evs es s₁ hs₁ hdone => exact ⟨deliverAll_invariant hP hs hs₁, hdone⟩
  | case4 s evs es s₁ hs₁ hdone hup =>
    -- the time is up
    exact hdrain .timeout P hP (fun _ => .inl) (fun _ h => h) s₁ es (deliverAll_invariant hP hs hs₁)
  | case5 s evs s₁ hs₁ => exact .inl (htick s₁ (deliverAll_invariant hP hs hs₁))
  | case6 s evs s₁ hs₁ hdone hup evs₂ es s₂ hs₂ =>
    -- an event crashed after the tick
    exact .inl (deliverAll_error hP (htick s₁ (deliverAll_invariant hP hs hs₁)) hs₂)
  | case7 s evs s₁ hs₁ hdone hup evs₂ es s₂ hs₂ hstopping =>
    -- the worker has been told to stop
    have hs₂ := deliverAll_invariant hP (htick s₁ (deliverAll_invariant hP hs hs₁)) hs₂
    exact hdrain .stopped Q hQ (fun _ => .inr) (fun _ h => h) _ es (hstop s₂ hs₂ hstopping)
  | case8 s evs s₁ hs₁ hdone hup evs₂ es s₂ hs₂ hstopping ih =>
    -- another tick
    exact ih (deliverAll_invariant hP (htick s₁ (deliverAll_invariant hP hs hs₁)) hs₂)

end Poller

end Process
