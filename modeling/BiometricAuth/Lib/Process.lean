import Mathlib

/-!
# Programs that sleep

A program works on a state `σ` that others change only while it sleeps: a
schedule is a list with one entry per sleep, the events that happen meanwhile, in
order. A program that has used up its schedule is still `waiting`; one that does
something undefined has `crashed`; otherwise it returns a value, the state and
what is left of the schedule.

`Proc` is the monad of these programs. Three ways to reason about one:

* `Proc.bind_eq_ret` and the other `.._eq_ret` lemmas take a run that returned
  apart into the runs of its parts;
* `Proc.Leads P p Q` says that `p` started in `P` ends in `Q`, whether it returns,
  waits for ever or crashes, with one rule per construct;
* `Proc.Returns P p Q` says that `p` started in `P` returns, if it does, in a state that `Q`
  says of its value, again with one rule per construct.
-/

namespace Process

variable {σ ε α β : Type}

/-- What becomes of a program. -/
inductive Outcome (σ ε α : Type)
  | ret (a : α) (s : σ) (rest : List (List ε))
  | waiting (s : σ)
  | crashed (s : σ)

/-- The state a program ends in, whatever becomes of it. -/
def Outcome.state : Outcome σ ε α → σ
  | .ret _ s _ => s
  | .waiting s => s
  | .crashed s => s

/-- The value and the state of a program that has returned. -/
def Outcome.result : Outcome σ ε α → Option (α × σ)
  | .ret a s _ => some (a, s)
  | .waiting _ => none
  | .crashed _ => none

theorem Outcome.result_eq_some {o : Outcome σ ε α} {a : α} {s : σ} :
    o.result = some (a, s) ↔ ∃ es, o = .ret a s es := by
  cases o with
  | ret a' s' es' =>
    simp only [result, Option.some.injEq, Prod.mk.injEq, ret.injEq, exists_and_left, exists_eq',
      and_true]
  | waiting s' | crashed s' => simp [result]

/-- A program on states `σ` that is interrupted by events `ε`. -/
def Proc (σ ε α : Type) := σ → List (List ε) → Outcome σ ε α

/-- The state after a list of events; an event may crash, in which case the state
it happened in is the result. -/
def deliverAll (deliver : σ → ε → Option σ) : σ → List ε → Except σ σ
  | s, [] => .ok s
  | s, e :: evs =>
    match deliver s e with
    | none => .error s
    | some s' => deliverAll deliver s' evs

/-- The state after a list of events, or the one in which an event crashed. -/
theorem deliverAll_leads {deliver : σ → ε → Option σ} {P : σ → Prop}
    (hP : ∀ s e s', P s → deliver s e = some s' → P s') {s : σ} (hs : P s) (evs : List ε) :
    match deliverAll deliver s evs with
    | .ok s' => P s'
    | .error s' => P s' := by
  induction evs generalizing s with
  | nil => exact hs
  | cons e evs ih =>
    rw [deliverAll]
    cases he : deliver s e with
    | none => exact hs
    | some s' => exact ih (hP s e s' hs he)

/-- An invariant of every event is one of every list of events. -/
theorem deliverAll_invariant {deliver : σ → ε → Option σ} {P : σ → Prop}
    (hP : ∀ s e s', P s → deliver s e = some s' → P s') {s s' : σ} {evs : List ε} (hs : P s)
    (h : deliverAll deliver s evs = .ok s') : P s' := by
  induction evs generalizing s with
  | nil =>
    obtain rfl := Except.ok.inj h
    exact hs
  | cons e evs ih =>
    rw [deliverAll] at h
    split at h
    next => cases h
    next s₁ hs₁ => exact ih (hP s e s₁ hs hs₁) h

theorem deliverAll_append (deliver : σ → ε → Option σ) (s : σ) (evs evs' : List ε) :
    deliverAll deliver s (evs ++ evs') =
      (deliverAll deliver s evs).bind fun s' => deliverAll deliver s' evs' := by
  induction evs generalizing s with
  | nil => rfl
  | cons e evs ih =>
    rw [List.cons_append, deliverAll, deliverAll]
    split
    · rfl
    · exact ih _

/-- When one system follows another by every event, it does so by lists of events. -/
theorem deliverAll_simulates {τ : Type} {deliver : σ → ε → Option σ}
    {deliver' : τ → ε → Option τ} {R : σ → τ → Prop}
    (hR : ∀ s t e s', R s t → deliver s e = some s' → ∃ t', deliver' t e = some t' ∧ R s' t')
    {s s' : σ} {t : τ} {evs : List ε} (hs : R s t) (h : deliverAll deliver s evs = .ok s') :
    ∃ t', deliverAll deliver' t evs = .ok t' ∧ R s' t' := by
  induction evs generalizing s t with
  | nil =>
    obtain rfl := Except.ok.inj h
    exact ⟨t, rfl, hs⟩
  | cons e evs ih =>
    rw [deliverAll] at h
    split at h
    next => cases h
    next s₁ hs₁ =>
      obtain ⟨t₁, ht₁, hR₁⟩ := hR s t e s₁ hs hs₁
      rw [deliverAll, ht₁]
      exact ih hR₁ h

namespace Proc

instance : Monad (Proc σ ε) where
  pure a := fun s es => .ret a s es
  bind p f := fun s es =>
    match p s es with
    | .ret a s' es' => f a s' es'
    | .waiting s' => .waiting s'
    | .crashed s' => .crashed s'

/-- The state. -/
def get : Proc σ ε σ := fun s es => .ret s s es

/-- Change the state. -/
def modify (f : σ → σ) : Proc σ ε Unit := fun s es => .ret () (f s) es

/-- Crash where `a` is `none`. -/
def ofOption (a : Option α) : Proc σ ε α := fun s es =>
  match a with
  | some a => .ret a s es
  | none => .crashed s

/-! ### Running -/

@[simp] theorem pure_apply (a : α) (s : σ) (es : List (List ε)) :
    (pure a : Proc σ ε α) s es = .ret a s es := rfl

theorem bind_apply (p : Proc σ ε α) (f : α → Proc σ ε β) (s : σ) (es : List (List ε)) :
    (p >>= f) s es =
      match p s es with
      | .ret a s' es' => f a s' es'
      | .waiting s' => .waiting s'
      | .crashed s' => .crashed s' := rfl

@[simp] theorem get_apply (s : σ) (es : List (List ε)) :
    (get : Proc σ ε σ) s es = .ret s s es := rfl

@[simp] theorem modify_apply (f : σ → σ) (s : σ) (es : List (List ε)) :
    (modify f : Proc σ ε Unit) s es = .ret () (f s) es := rfl

@[simp] theorem ofOption_some (a : α) (s : σ) (es : List (List ε)) :
    (ofOption (some a) : Proc σ ε α) s es = .ret a s es := rfl

@[simp] theorem ofOption_none (s : σ) (es : List (List ε)) :
    (ofOption none : Proc σ ε α) s es = .crashed s := rfl

@[simp] theorem get_bind (f : σ → Proc σ ε β) (s : σ) (es : List (List ε)) :
    (get >>= f) s es = f s s es := rfl

@[simp] theorem modify_bind (g : σ → σ) (f : Unit → Proc σ ε β) (s : σ) (es : List (List ε)) :
    (modify g >>= f) s es = f () (g s) es := rfl

theorem map_bind {γ : Type} (g : α → β) (p : Proc σ ε α) (f : β → Proc σ ε γ) :
    (g <$> p) >>= f = p >>= fun a => f (g a) := by
  funext s es
  have hmap : (g <$> p) s es = (p >>= fun a => pure (g a)) s es := rfl
  rw [bind_apply, bind_apply, hmap, bind_apply]
  cases p s es <;> rfl

/-- A sequence returned: both parts did. -/
theorem bind_eq_ret {p : Proc σ ε α} {f : α → Proc σ ε β} {s s'' : σ} {es es'' : List (List ε)}
    {b : β} : (p >>= f) s es = .ret b s'' es'' ↔
      ∃ a s' es', p s es = .ret a s' es' ∧ f a s' es' = .ret b s'' es'' := by
  rw [bind_apply]
  cases hp : p s es with
  | ret a s' es' =>
    constructor
    · intro h
      exact ⟨a, s', es', rfl, h⟩
    · rintro ⟨a, s', es', h, hf⟩
      cases h
      exact hf
  | waiting s' => simp
  | crashed s' => simp

theorem pure_eq_ret {a b : α} {s s' : σ} {es es' : List (List ε)} :
    (pure a : Proc σ ε α) s es = .ret b s' es' ↔ b = a ∧ s' = s ∧ es' = es := by
  rw [pure_apply, Outcome.ret.injEq, eq_comm, eq_comm (a := s), eq_comm (a := es)]

theorem ofOption_eq_ret {o : Option α} {a : α} {s s' : σ} {es es' : List (List ε)} :
    (ofOption o : Proc σ ε α) s es = .ret a s' es' ↔ o = some a ∧ s' = s ∧ es' = es := by
  cases o with
  | none => simp
  | some a' =>
    rw [ofOption_some, Outcome.ret.injEq, Option.some.injEq, eq_comm (a := s),
      eq_comm (a := es)]

theorem map_eq_ret {p : Proc σ ε α} {f : α → β} {s s' : σ} {es es' : List (List ε)} {b : β} :
    (f <$> p) s es = .ret b s' es' ↔ ∃ a, p s es = .ret a s' es' ∧ b = f a := by
  change (p >>= fun a => pure (f a)) s es = _ ↔ _
  rw [bind_eq_ret]
  constructor
  · rintro ⟨a, s₁, es₁, hp, hpure⟩
    obtain ⟨rfl, rfl, rfl⟩ := pure_eq_ret.mp hpure
    exact ⟨a, hp, rfl⟩
  · rintro ⟨a, hp, rfl⟩
    exact ⟨a, s', es', hp, rfl⟩

theorem discard_eq_ret {p : Proc σ ε α} {s s' : σ} {es es' : List (List ε)} {u : Unit} :
    discard p s es = .ret u s' es' ↔ ∃ a, p s es = .ret a s' es' := by
  refine map_eq_ret.trans (exists_congr fun a => ?_)
  exact and_iff_left rfl

/-! ### Wherever a program ends -/

/-- Started in `P`, the program ends in `Q`, whatever becomes of it. -/
def Leads (P : σ → Prop) (p : Proc σ ε α) (Q : σ → Prop) : Prop :=
  ∀ s es, P s → Q (p s es).state

namespace Leads

variable {P P' Q Q' : σ → Prop} {p : Proc σ ε α}

theorem mono (h : Leads P p Q) (hP : ∀ s, P' s → P s) (hQ : ∀ s, Q s → Q' s) : Leads P' p Q' :=
  fun s es hs => hQ _ (h s es (hP s hs))

theorem pure {a : α} (h : ∀ s, P s → Q s) : Leads P (pure a : Proc σ ε α) Q :=
  fun s _ hs => h s hs

theorem modify {f : σ → σ} (h : ∀ s, P s → Q (f s)) : Leads P (modify f : Proc σ ε Unit) Q :=
  fun s _ hs => h s hs

/-- A sequence: the second part starts wherever the first one may end. -/
theorem bind {f : α → Proc σ ε β} (hp : Leads P p Q) (hf : ∀ a, Leads Q (f a) Q) :
    Leads P (p >>= f) Q := by
  intro s es hs
  have hp := hp s es hs
  rw [bind_apply]
  cases hps : p s es with
  | ret a s' es' =>
    rw [hps] at hp
    exact hf a s' es' hp
  | waiting s' | crashed s' => rwa [hps] at hp

/-- What follows may know the state. -/
theorem get_bind {f : σ → Proc σ ε β} (hf : ∀ s, P s → Leads (· = s) (f s) Q) :
    Leads P (get >>= f) Q :=
  fun s es hs => hf s hs s es rfl

theorem modify_bind {g : σ → σ} {f : Unit → Proc σ ε β} {R : σ → Prop}
    (h : ∀ s, P s → R (g s)) (hf : Leads R (f ()) Q) : Leads P (Proc.modify g >>= f) Q :=
  fun s es hs => hf (g s) es (h s hs)

/-- What follows may know what the value is. -/
theorem ofOption_bind {o : Option α} {f : α → Proc σ ε β} (h : ∀ s, P s → Q s)
    (hf : ∀ a, o = some a → Leads P (f a) Q) : Leads P (Proc.ofOption o >>= f) Q := by
  intro s es hs
  cases o with
  | none => exact h s hs
  | some a => exact hf a rfl s es hs

theorem map {f : α → β} (hp : Leads P p Q) : Leads P (f <$> p) Q :=
  hp.bind fun _ => pure fun _ hs => hs

theorem ite {c : Prop} [Decidable c] {q : Proc σ ε α} (hp : c → Leads P p Q)
    (hq : ¬ c → Leads P q Q) : Leads P (if c then p else q) Q := by
  split
  next hc => exact hp hc
  next hc => exact hq hc

end Leads

/-! ### Where a program returns -/

/-- Started in `P`, the program returns only with what `Q` says of its value and the state. -/
def Returns (P : σ → Prop) (p : Proc σ ε α) (Q : α → σ → Prop) : Prop :=
  ∀ s es a s' es', P s → p s es = .ret a s' es' → Q a s'

namespace Returns

variable {P P' : σ → Prop} {Q Q' : α → σ → Prop} {p : Proc σ ε α}

theorem mono (h : Returns P p Q) (hP : ∀ s, P' s → P s) (hQ : ∀ a s, Q a s → Q' a s) :
    Returns P' p Q' :=
  fun s es a s' es' hs hp => hQ a s' (h s es a s' es' (hP s hs) hp)

theorem pure {a : α} (h : ∀ s, P s → Q a s) : Returns P (pure a : Proc σ ε α) Q := by
  intro s es b s' es' hs hp
  obtain ⟨rfl, rfl, -⟩ := pure_eq_ret.mp hp
  exact h s' hs

theorem modify {f : σ → σ} {R : Unit → σ → Prop} (h : ∀ s, P s → R () (f s)) :
    Returns P (modify f : Proc σ ε Unit) R := by
  intro s es b s' es' hs hp
  cases hp
  exact h s hs

theorem bind {f : α → Proc σ ε β} {R : β → σ → Prop} (hp : Returns P p Q)
    (hf : ∀ a, Returns (Q a) (f a) R) : Returns P (p >>= f) R := by
  intro s es b s' es' hs hret
  obtain ⟨a, s₁, es₁, hps, hfs⟩ := bind_eq_ret.mp hret
  exact hf a s₁ es₁ b s' es' (hp s es a s₁ es₁ hs hps) hfs

theorem get_bind {f : σ → Proc σ ε β} {R : β → σ → Prop}
    (hf : ∀ s, P s → Returns (· = s) (f s) R) : Returns P (get >>= f) R :=
  fun s es b s' es' hs hret => hf s hs s es b s' es' rfl hret

theorem modify_bind {g : σ → σ} {f : Unit → Proc σ ε β} {M : σ → Prop} {R : β → σ → Prop}
    (h : ∀ s, P s → M (g s)) (hf : Returns M (f ()) R) : Returns P (Proc.modify g >>= f) R :=
  fun s es b s' es' hs hret => hf (g s) es b s' es' (h s hs) hret

theorem ofOption_bind {o : Option α} {f : α → Proc σ ε β} {R : β → σ → Prop}
    (hf : ∀ a, o = some a → Returns P (f a) R) : Returns P (Proc.ofOption o >>= f) R := by
  intro s es b s' es' hs hret
  obtain ⟨a, s₁, es₁, hps, hfs⟩ := bind_eq_ret.mp hret
  obtain ⟨ho, rfl, rfl⟩ := ofOption_eq_ret.mp hps
  exact hf a ho s₁ es₁ b s' es' hs hfs

theorem ite {c : Prop} [Decidable c] {q : Proc σ ε α} (hp : c → Returns P p Q)
    (hq : ¬ c → Returns P q Q) : Returns P (if c then p else q) Q := by
  split
  next hc => exact hp hc
  next hc => exact hq hc

end Returns

end Proc

end Process
