import BiometricAuth.Lib.Process

/-!
# Waiting for a completion by polling

A worker that has started an asynchronous operation waits for it in a loop: it
sleeps for a moment, looks whether the operation is done, gives up when its time
is used up, and otherwise sleeps for one interval and looks whether it has been
told to stop. When it gives up or is told to stop it cancels the operation and
then waits for its end in a second loop that nothing interrupts.

`Poller` holds what such a loop looks at and changes, `Poller.poll` is the loop
and `Poller.drain` the second one. There are three ways to reason about it:

* `Poller.poll_invariant` — the invariant rule, with one condition per exit;
* `Poller.poll_simulates` — a system that follows another and makes its decisions
  leaves the loop by the same exit;
* `Poller.Waits.poll_eq` — when the time the loop looks at is a clock, how long
  it waits for the completion;
* `Poller.Awaits.poll_ret_iff` — a completion that the loop sees releases it, whatever
  the loop was doing (`Poller.resume` is the loop from any of its sleeps on).
-/

namespace Process

variable {σ τ ε : Type}

/-- What a polling loop looks at and changes. -/
structure Poller (σ ε : Type) where
  /-- What an event does while the worker sleeps. -/
  deliver : σ → ε → Option σ
  /-- The operation is done. -/
  isDone : σ → Bool
  /-- The time is used up. -/
  timeUp : σ → Bool
  /-- One interval more is used. -/
  tick : σ → σ
  /-- The worker has been told to stop. -/
  isStopping : σ → Bool
  /-- What the worker does then, before it waits for the end. -/
  stop : σ → σ

/-- How a polling loop ends. -/
inductive Exit
  | done | timeout | stopped
deriving DecidableEq, Repr

namespace Poller

/-- The loop that nothing interrupts. -/
def drain (p : Poller σ ε) : Proc σ ε Unit
  | s, [] => .waiting s
  | s, evs :: es =>
    match deliverAll p.deliver s evs with
    | .error s => .crashed s
    | .ok s => if p.isDone s then .ret () s es else p.drain s es

/-- `p.drain`, reported as `exit`. -/
def drainTo (p : Poller σ ε) (exit : Exit) : Proc σ ε Exit := do
  p.drain
  return exit

/-- The loop. -/
def poll (p : Poller σ ε) : Proc σ ε Exit
  | s, [] => .waiting s
  | s, evs :: es =>
    match deliverAll p.deliver s evs with
    | .error s => .crashed s
    | .ok s =>
      if p.isDone s then .ret .done s es
      else if p.timeUp s then p.drainTo .timeout s es
      else
        match es with
        | [] => .waiting (p.tick s)
        | evs :: es =>
          match deliverAll p.deliver (p.tick s) evs with
          | .error s => .crashed s
          | .ok s =>
            if p.isStopping s then p.drainTo .stopped (p.stop s) es
            else p.poll s es

theorem drainTo_eq_ret {p : Poller σ ε} {exit exit' : Exit} {s s' : σ} {es es' : List (List ε)} :
    p.drainTo exit s es = .ret exit' s' es' ↔
      exit' = exit ∧ p.drain s es = .ret () s' es' := by
  unfold drainTo
  rw [Proc.bind_eq_ret]
  constructor
  · rintro ⟨⟨⟩, s₁, es₁, hdrain, hexit⟩
    obtain ⟨rfl, rfl, rfl⟩ := Proc.pure_eq_ret.mp hexit
    exact ⟨rfl, hdrain⟩
  · rintro ⟨rfl, hdrain⟩
    exact ⟨(), s', es', hdrain, rfl⟩

/-! ### The invariant rule -/

section Invariant

variable {p : Poller σ ε} {s s' : σ} {es es' : List (List ε)}

/-- What every event preserves holds at the end. -/
theorem drain_invariant {P : σ → Prop} (hP : ∀ s e s', P s → p.deliver s e = some s' → P s')
    (hs : P s) (h : p.drain s es = .ret () s' es') : P s' ∧ p.isDone s' = true := by
  induction es generalizing s with
  | nil => cases h
  | cons evs es ih =>
    rw [drain] at h
    split at h
    next => cases h
    next s₁ hs₁ =>
      have hP₁ := deliverAll_invariant hP hs hs₁
      split at h
      next hdone =>
        cases h
        exact ⟨hP₁, hdone⟩
      next => exact ih hP₁ h

/-- What holds at the exits of the loop: `P` is what events and ticks preserve, and
`Q` what events preserve after the worker has been told to stop. -/
theorem poll_invariant {P Q : σ → Prop} {exit : Exit}
    (hP : ∀ s e s', P s → p.deliver s e = some s' → P s')
    (htick : ∀ s, P s → p.timeUp s = false → P (p.tick s))
    (hstop : ∀ s, P s → p.isStopping s = true → Q (p.stop s))
    (hQ : ∀ s e s', Q s → p.deliver s e = some s' → Q s')
    (hs : P s) (h : p.poll s es = .ret exit s' es') :
    (if exit = .stopped then Q s' else P s') ∧ p.isDone s' = true := by
  fun_induction p.poll s es with
  | case1 => cases h
  | case2 => cases h
  | case3 s evs es s₁ hs₁ hdone =>
    -- done before the time was up
    cases h
    exact ⟨deliverAll_invariant hP hs hs₁, hdone⟩
  | case4 s evs es s₁ hs₁ hdone hup =>
    -- the time is up, and the loop drains until the operation is done
    obtain ⟨rfl, hdrain⟩ := drainTo_eq_ret.mp h
    exact drain_invariant hP (deliverAll_invariant hP hs hs₁) hdrain
  | case5 => cases h
  | case6 => cases h
  | case7 s evs s₁ hs₁ hdone hup evs₂ es s₂ hs₂ hstopping =>
    -- the worker has been told to stop, and the loop drains
    obtain ⟨rfl, hdrain⟩ := drainTo_eq_ret.mp h
    have hP₁ := htick s₁ (deliverAll_invariant hP hs hs₁) (by simpa using hup)
    exact drain_invariant hQ (hstop s₂ (deliverAll_invariant hP hP₁ hs₂) hstopping) hdrain
  | case8 s evs s₁ hs₁ hdone hup evs₂ es s₂ hs₂ hstopping ih =>
    -- another tick
    have hP₁ := htick s₁ (deliverAll_invariant hP hs hs₁) (by simpa using hup)
    exact ih (deliverAll_invariant hP hP₁ hs₂) h

/-- What events, ticks and the stop preserve holds wherever the second loop ends. -/
theorem drain_leads {P : σ → Prop} (hP : ∀ s e s', P s → p.deliver s e = some s' → P s') :
    Proc.Leads P p.drain P := by
  intro s es hs
  induction es generalizing s with
  | nil => exact hs
  | cons evs es ih =>
    have hP₁ := deliverAll_leads hP hs evs
    rw [drain]
    split at hP₁
    next s₁ hs₁ =>
      simp only [hs₁]
      split
      · exact hP₁
      · exact ih s₁ hP₁
    next s₁ hs₁ =>
      simp only [hs₁]
      exact hP₁

/-- And wherever the loop does. -/
theorem poll_leads {P : σ → Prop} (hP : ∀ s e s', P s → p.deliver s e = some s' → P s')
    (htick : ∀ s, P s → P (p.tick s)) (hstop : ∀ s, P s → P (p.stop s)) :
    Proc.Leads P p.poll P := by
  have hdrain : ∀ exit, Proc.Leads P (p.drainTo exit) P := fun exit =>
    (drain_leads hP).bind fun _ => Proc.Leads.pure fun _ hs => hs
  have hevents : ∀ {s s' evs}, P s → deliverAll p.deliver s evs = .ok s' → P s' := fun hs hs' =>
    deliverAll_invariant hP hs hs'
  -- a crash happens after some of the events
  have hcrash : ∀ {s s' evs}, P s → deliverAll p.deliver s evs = .error s' → P s' := by
    intro s s' evs hs hs'
    have h := deliverAll_leads hP hs evs
    rwa [hs'] at h
  intro s es hs
  fun_induction p.poll s es with
  | case1 => exact hs
  | case2 s evs es s₁ hs₁ => exact hcrash hs hs₁
  | case3 s evs es s₁ hs₁ hdone => exact hevents hs hs₁
  | case4 s evs es s₁ hs₁ hdone hup => exact hdrain .timeout s₁ es (hevents hs hs₁)
  | case5 s evs s₁ hs₁ => exact htick s₁ (hevents hs hs₁)
  | case6 s evs s₁ hs₁ hdone hup evs₂ es s₂ hs₂ => exact hcrash (htick s₁ (hevents hs hs₁)) hs₂
  | case7 s evs s₁ hs₁ hdone hup evs₂ es s₂ hs₂ hstopping =>
    -- the worker has been told to stop, and the loop drains
    exact hdrain .stopped _ es (hstop s₂ (hevents (htick s₁ (hevents hs hs₁)) hs₂))
  | case8 s evs s₁ hs₁ hdone hup evs₂ es s₂ hs₂ hstopping ih =>
    -- another tick
    exact ih (hevents (htick s₁ (hevents hs hs₁)) hs₂)

end Invariant

/-! ### Simulation -/

/-- Events go together: `q` follows `p` by the relation `R`, and sees the end when `p`
does. -/
structure Follows (p : Poller σ ε) (q : Poller τ ε) (R : σ → τ → Prop) : Prop where
  deliver : ∀ s t e s', R s t → p.deliver s e = some s' → ∃ t', q.deliver t e = some t' ∧ R s' t'
  isDone : ∀ s t, R s t → q.isDone t = p.isDone s

/-- `q` makes the decisions of `p`: it follows by `R` until the worker has been told to
stop, and by `Q` from then on. -/
structure Simulates (p : Poller σ ε) (q : Poller τ ε) (R Q : σ → τ → Prop) : Prop where
  follows : p.Follows q R
  follows_stopped : p.Follows q Q
  timeUp : ∀ s t, R s t → q.timeUp t = p.timeUp s
  tick : ∀ s t, R s t → R (p.tick s) (q.tick t)
  isStopping : ∀ s t, R s t → q.isStopping t = p.isStopping s
  stop : ∀ s t, R s t → p.isStopping s = true → Q (p.stop s) (q.stop t)

section Simulates

variable {p : Poller σ ε} {q : Poller τ ε} {R Q : σ → τ → Prop} {s s' : σ} {t : τ}
  {es es' : List (List ε)}

theorem drain_follows (hR : p.Follows q R) (hs : R s t) (h : p.drain s es = .ret () s' es') :
    ∃ t', q.drain t es = .ret () t' es' ∧ R s' t' := by
  induction es generalizing s t with
  | nil => cases h
  | cons evs es ih =>
    rw [drain] at h ⊢
    split at h
    next => cases h
    next s₁ hs₁ =>
      obtain ⟨t₁, ht₁, hR₁⟩ := deliverAll_simulates hR.deliver hs hs₁
      simp only [ht₁, hR.isDone s₁ t₁ hR₁]
      split at h
      next hdone =>
        cases h
        exact ⟨t₁, if_pos hdone, hR₁⟩
      next hdone =>
        rw [if_neg hdone]
        exact ih hR₁ h

theorem drainTo_follows (hR : p.Follows q R) (hs : R s t) {exit exit' : Exit}
    (h : p.drainTo exit s es = .ret exit' s' es') :
    exit' = exit ∧ ∃ t', q.drainTo exit t es = .ret exit' t' es' ∧ R s' t' := by
  obtain ⟨rfl, hdrain⟩ := drainTo_eq_ret.mp h
  obtain ⟨t', ht', hR'⟩ := drain_follows hR hs hdrain
  exact ⟨rfl, t', drainTo_eq_ret.mpr ⟨rfl, ht'⟩, hR'⟩

/-- The system that follows leaves the loop by the same exit. -/
theorem poll_simulates (h : p.Simulates q R Q) (hs : R s t) {exit : Exit}
    (hpoll : p.poll s es = .ret exit s' es') :
    ∃ t', q.poll t es = .ret exit t' es' ∧ if exit = .stopped then Q s' t' else R s' t' := by
  have hR := h.follows
  -- by induction on the loop: each way through it is one case
  fun_induction p.poll s es generalizing t with
  | case1 => cases hpoll
  | case2 => cases hpoll
  | case3 s evs es s₁ hs₁ hdone =>
    -- the operation is done at the first look
    cases hpoll
    obtain ⟨t₁, ht₁, hR₁⟩ := deliverAll_simulates hR.deliver hs hs₁
    refine ⟨t₁, ?_, hR₁⟩
    simp only [poll, ht₁, hR.isDone _ t₁ hR₁, if_pos hdone]
  | case4 s evs es s₁ hs₁ hdone hup =>
    -- the time is up: the second loop
    obtain ⟨t₁, ht₁, hR₁⟩ := deliverAll_simulates hR.deliver hs hs₁
    simp only [poll, ht₁, hR.isDone s₁ t₁ hR₁, if_neg hdone, h.timeUp s₁ t₁ hR₁, if_pos hup]
    obtain ⟨rfl, t', ht', hR'⟩ := drainTo_follows hR hR₁ hpoll
    exact ⟨t', ht', hR'⟩
  | case5 => cases hpoll
  | case6 => cases hpoll
  | case7 s evs s₁ hs₁ hdone hup evs₂ es s₂ hs₂ hstopping =>
    -- the loop is asked to stop: the second loop, from states that `Q` relates
    obtain ⟨t₁, ht₁, hR₁⟩ := deliverAll_simulates hR.deliver hs hs₁
    obtain ⟨t₂, ht₂, hR₂⟩ := deliverAll_simulates hR.deliver (h.tick s₁ t₁ hR₁) hs₂
    simp only [poll, ht₁, hR.isDone s₁ t₁ hR₁, if_neg hdone, h.timeUp s₁ t₁ hR₁, if_neg hup,
      ht₂, h.isStopping s₂ t₂ hR₂, if_pos hstopping]
    obtain ⟨rfl, t', ht', hQ'⟩ :=
      drainTo_follows h.follows_stopped (h.stop s₂ t₂ hR₂ hstopping) hpoll
    exact ⟨t', ht', hQ'⟩
  | case8 s evs s₁ hs₁ hdone hup evs₂ es s₂ hs₂ hstopping ih =>
    -- another round
    obtain ⟨t₁, ht₁, hR₁⟩ := deliverAll_simulates hR.deliver hs hs₁
    obtain ⟨t₂, ht₂, hR₂⟩ := deliverAll_simulates hR.deliver (h.tick s₁ t₁ hR₁) hs₂
    simp only [poll, ht₁, hR.isDone s₁ t₁ hR₁, if_neg hdone, h.timeUp s₁ t₁ hR₁, if_neg hup,
      ht₂, h.isStopping s₂ t₂ hR₂, if_neg hstopping]
    exact ih hR₂ hpoll

end Simulates

/-! ### How long the loop waits -/

/-- A loop that waits for one completion, by a clock: `Running` holds until the
completion, through every event that is `Quiet`, and `Finished` after it. -/
structure Waits (p : Poller σ ε) (Running Finished : σ → Prop) (Quiet Late : ε → Prop)
    (clock : σ → ℤ) (interval limit : ℤ) : Prop where
  quiet : ∀ s e, Running s → Quiet e →
    ∃ s', p.deliver s e = some s' ∧ Running s' ∧ clock s' = clock s
  tick : ∀ s, Running s → Running (p.tick s) ∧ clock (p.tick s) = clock s + interval
  not_done : ∀ s, Running s → p.isDone s = false
  timeUp : ∀ s, Running s → (p.timeUp s = true ↔ limit < clock s)
  not_stopping : ∀ s, Running s ∨ Finished s → p.isStopping s = false
  done : ∀ s, Finished s → p.isDone s = true
  late : ∀ s e, Finished s → Late e → ∃ s', p.deliver s e = some s' ∧ Finished s'

section Waits

variable {p : Poller σ ε} {Running Finished : σ → Prop} {Quiet Late : ε → Prop} {clock : σ → ℤ}
  {interval limit : ℤ} {s : σ}

theorem Waits.deliverAll_quiet (h : p.Waits Running Finished Quiet Late clock interval limit)
    (hs : Running s) {evs : List ε} (hevs : ∀ e ∈ evs, Quiet e) :
    ∃ s', deliverAll p.deliver s evs = .ok s' ∧ Running s' ∧ clock s' = clock s := by
  induction evs generalizing s with
  | nil => exact ⟨s, rfl, hs, rfl⟩
  | cons e evs ih =>
    obtain ⟨s₁, hs₁, hrun, hclock⟩ := h.quiet s e hs (hevs e (by simp))
    obtain ⟨s₂, hs₂, hrun₂, hclock₂⟩ := ih hrun fun e he => hevs e (by simp [he])
    refine ⟨s₂, ?_, hrun₂, hclock₂.trans hclock⟩
    rw [deliverAll, hs₁]
    exact hs₂

theorem Waits.deliverAll_late (h : p.Waits Running Finished Quiet Late clock interval limit)
    (hs : Finished s) {evs : List ε} (hevs : ∀ e ∈ evs, Late e) :
    ∃ s', deliverAll p.deliver s evs = .ok s' ∧ Finished s' := by
  induction evs generalizing s with
  | nil => exact ⟨s, rfl, hs⟩
  | cons e evs ih =>
    obtain ⟨s₁, hs₁, hfin⟩ := h.late s e hs (hevs e (by simp))
    obtain ⟨s₂, hs₂, hfin₂⟩ := ih hfin fun e he => hevs e (by simp [he])
    refine ⟨s₂, ?_, hfin₂⟩
    rw [deliverAll, hs₁]
    exact hs₂

/-- The events of one sleep that finish the operation. -/
def Finishes (p : Poller σ ε) (Running Finished : σ → Prop) (evs : List ε) : Prop :=
  ∀ s, Running s → ∃ s', deliverAll p.deliver s evs = .ok s' ∧ Finished s'

/-- One event that finishes it is enough, with quiet ones before and late ones after. -/
theorem Waits.finishes (h : p.Waits Running Finished Quiet Late clock interval limit) {e : ε}
    (he : ∀ s, Running s → ∃ s', p.deliver s e = some s' ∧ Finished s') {before after : List ε}
    (hbefore : ∀ e ∈ before, Quiet e) (hafter : ∀ e ∈ after, Late e) :
    p.Finishes Running Finished (before ++ e :: after) := by
  intro s hs
  obtain ⟨s₁, hs₁, hrun, -⟩ := h.deliverAll_quiet hs hbefore
  obtain ⟨s₂, hs₂, hfin⟩ := he s₁ hrun
  obtain ⟨s₃, hs₃, hfin₃⟩ := h.deliverAll_late hfin hafter
  refine ⟨s₃, ?_, hfin₃⟩
  rw [deliverAll_append, hs₁]
  simp only [Except.bind, deliverAll, hs₂]
  exact hs₃

variable {pre rest : List (List ε)} {evs next : List ε}

theorem Waits.drain_eq (h : p.Waits Running Finished Quiet Late clock interval limit)
    (hs : Running s) (hpre : ∀ evs ∈ pre, ∀ e ∈ evs, Quiet e)
    (hevs : p.Finishes Running Finished evs) :
    ∃ s', p.drain s (pre ++ evs :: rest) = .ret () s' rest := by
  induction pre generalizing s with
  | nil =>
    obtain ⟨s', hs', hfin⟩ := hevs s hs
    refine ⟨s', ?_⟩
    rw [List.nil_append, drain, hs']
    exact if_pos (h.done s' hfin)
  | cons quiet pre ih =>
    obtain ⟨s₁, hs₁, hrun, -⟩ := h.deliverAll_quiet hs (hpre quiet (by simp))
    obtain ⟨s', hs'⟩ := ih hrun fun evs hevs => hpre evs (by simp [hevs])
    refine ⟨s', ?_⟩
    rw [List.cons_append, drain, hs₁]
    simpa [h.not_done s₁ hrun] using hs'

/-- The loop looks at the clock once in every two sleeps. It waits long enough for a
completion in sleep `pre.length` exactly if the clock has not passed the limit
when the loop last looks at it before. -/
theorem Waits.poll_eq (h : p.Waits Running Finished Quiet Late clock interval limit)
    (hevs : p.Finishes Running Finished evs) (hnext : ∀ e ∈ next, Late e)
    (hinterval : 0 ≤ interval) (hs : Running s) (hpre : ∀ evs ∈ pre, ∀ e ∈ evs, Quiet e)
    (rest : List (List ε)) :
    if pre.length = 0 ∨ clock s + interval * ↑((pre.length - 1) / 2) ≤ limit then
      ∃ s' es', p.poll s (pre ++ evs :: next :: rest) = .ret .done s' es' ∧ Finished s'
    else ∃ s' es', p.poll s (pre ++ evs :: next :: rest) = .ret .timeout s' es' := by
  -- The time is up at once: what is left of the schedule goes to the second loop.
  have hgiveUp : ∀ {s : σ} (pre : List (List ε)), Running s → limit < clock s →
      (∀ evs ∈ pre, ∀ e ∈ evs, Quiet e) →
      ∃ s' es', p.drainTo .timeout s (pre ++ evs :: next :: rest) = .ret .timeout s' es' := by
    intro s pre hs hlimit hpre
    obtain ⟨s', hs'⟩ := h.drain_eq hs hpre hevs
    exact ⟨s', next :: rest, drainTo_eq_ret.mpr ⟨rfl, hs'⟩⟩
  -- by induction on the sleeps before the completion, two at a time, as the loop looks at every
  -- second
  induction pre using List.twoStepInduction generalizing s with
  | nil =>
    -- the completion comes in the first sleep
    rw [if_pos (Or.inl List.length_nil), List.nil_append, poll]
    obtain ⟨s₁, hs₁, hfin⟩ := hevs s hs
    rw [hs₁]
    exact ⟨s₁, next :: rest, if_pos (h.done s₁ hfin), hfin⟩
  | singleton quiet =>
    -- it comes in the second: the loop has looked at the clock once
    obtain ⟨s₁, hs₁, hrun, hclock⟩ := h.deliverAll_quiet hs (hpre quiet (by simp))
    rw [List.cons_append, List.nil_append, poll, hs₁]
    simp only [h.not_done s₁ hrun, Bool.false_eq_true, if_false, h.timeUp s₁ hrun, hclock]
    by_cases hlimit : limit < clock s
    · rw [if_pos hlimit, if_neg (by simpa using hlimit)]
      exact hgiveUp [] hrun (hclock ▸ hlimit) (by simp)
    · -- the loop looks again after the completion
      rw [if_neg hlimit, if_pos (by simpa using hlimit)]
      obtain ⟨s₂, hs₂, hfin⟩ := hevs (p.tick s₁) (h.tick s₁ hrun).1
      obtain ⟨s₃, hs₃, hfin₃⟩ := h.deliverAll_late hfin hnext
      rw [hs₂]
      simp only [h.not_stopping s₂ (Or.inr hfin), Bool.false_eq_true, if_false]
      rw [poll, hs₃]
      exact ⟨s₃, rest, if_pos (h.done s₃ hfin₃), hfin₃⟩
  | cons_cons quiet quiet' pre ih =>
    -- the loop looks once, and two sleeps less are left
    obtain ⟨s₁, hs₁, hrun, hclock⟩ := h.deliverAll_quiet hs (hpre quiet (by simp))
    rw [List.cons_append, List.cons_append, poll, hs₁]
    simp only [h.not_done s₁ hrun, Bool.false_eq_true, if_false, h.timeUp s₁ hrun, hclock]
    have hrounds : (quiet :: quiet' :: pre).length - 1 = pre.length + 1 := by simp
    rw [hrounds]
    by_cases hlimit : limit < clock s
    · -- the limit has passed, and it has passed for good
      have hlate : ¬ ((quiet :: quiet' :: pre).length = 0 ∨
          clock s + interval * ↑((pre.length + 1) / 2) ≤ limit) := by
        have hne : (quiet :: quiet' :: pre).length ≠ 0 := by simp
        have hnonneg : 0 ≤ interval * ↑((pre.length + 1) / 2) := by positivity
        omega
      rw [if_pos hlimit, if_neg hlate]
      refine hgiveUp (quiet' :: pre) hrun (hclock ▸ hlimit) ?_
      exact fun evs hevs => hpre evs (List.mem_cons_of_mem _ hevs)
    · obtain ⟨hrun₁, hclock₁⟩ := h.tick s₁ hrun
      obtain ⟨s₂, hs₂, hrun₂, hclock₂⟩ :=
        h.deliverAll_quiet hrun₁ (hpre quiet' (by simp))
      have hpre₂ : ∀ evs ∈ pre, ∀ e ∈ evs, Quiet e := fun evs hevs =>
        hpre evs (List.mem_cons_of_mem _ (List.mem_cons_of_mem _ hevs))
      -- the bound is moved by one round
      have hcond : (pre.length = 0 ∨
            clock s₂ + interval * ↑((pre.length - 1) / 2) ≤ limit) ↔
          ((quiet :: quiet' :: pre).length = 0 ∨
            clock s + interval * ↑((pre.length + 1) / 2) ≤ limit) := by
        rw [hclock₂, hclock₁, hclock]
        cases pre with
        | nil => simpa using hlimit
        | cons x pre =>
          have hhalf : ((x :: pre).length + 1) / 2 = ((x :: pre).length - 1) / 2 + 1 := by
            rw [List.length_cons]
            omega
          rw [hhalf]
          push_cast
          simp only [false_or, mul_add, mul_one]
          constructor <;> intro <;> omega
      rw [if_neg hlimit, hs₂]
      simp only [h.not_stopping s₂ (Or.inl hrun₂), Bool.false_eq_true, if_false, ← hcond]
      exact ih hrun₂ hpre₂

end Waits

/-! ### One sleep at a time -/

/-- What a worker sleeps for: to look whether the operation is done, to look whether it is to
stop, or for the end of the operation in the second loop. -/
inductive Stage
  | look | pause | drain (exit : Exit)

/-- What the worker does after a sleep: it leaves the loop or sleeps again. -/
def wake (p : Poller σ ε) : Stage → σ → Exit ⊕ Stage × σ
  | .look, s =>
    if p.isDone s then .inl .done
    else if p.timeUp s then .inr (.drain .timeout, s)
    else .inr (.pause, p.tick s)
  | .pause, s =>
    if p.isStopping s then .inr (.drain .stopped, p.stop s) else .inr (.look, s)
  | .drain exit, s => if p.isDone s then .inl exit else .inr (.drain exit, s)

/-- The loop, from one of its sleeps on. -/
def resume (p : Poller σ ε) : Stage → Proc σ ε Exit
  | _, s, [] => .waiting s
  | stage, s, evs :: es =>
    match deliverAll p.deliver s evs with
    | .error s => .crashed s
    | .ok s =>
      match p.wake stage s with
      | .inl exit => .ret exit s es
      | .inr (stage, s) => p.resume stage s es

theorem resume_drain (p : Poller σ ε) (exit : Exit) (s : σ) (es : List (List ε)) :
    p.resume (.drain exit) s es = p.drainTo exit s es := by
  unfold drainTo
  rw [Proc.bind_apply]
  induction es generalizing s with
  | nil => rfl
  | cons evs es ih =>
    rw [resume, drain]
    cases deliverAll p.deliver s evs with
    | error s' => rfl
    | ok s' =>
      by_cases hdone : p.isDone s' = true
      · simp [wake, hdone]
      · simp only [wake, hdone]
        exact ih s'

theorem resume_look (p : Poller σ ε) (s : σ) (es : List (List ε)) :
    p.resume .look s es = p.poll s es := by
  fun_induction p.poll s es with
  | case1 => rfl
  | case2 s evs es s₁ hs₁ => simp only [resume, hs₁]
  | case3 s evs es s₁ hs₁ hdone => simp only [resume, hs₁, wake, if_pos hdone]
  | case4 s evs es s₁ hs₁ hdone hup =>
    simp only [resume, hs₁, wake, if_neg hdone, if_pos hup, resume_drain]
  | case5 s evs s₁ hs₁ hdone hup =>
    simp only [resume, hs₁, wake, if_neg hdone, if_neg hup]
  | case6 s evs s₁ hs₁ hdone hup evs₂ es s₂ hs₂ =>
    simp only [resume, hs₁, wake, if_neg hdone, if_neg hup, hs₂]
  | case7 s evs s₁ hs₁ hdone hup evs₂ es s₂ hs₂ hstopping =>
    simp only [resume, hs₁, wake, if_neg hdone, if_neg hup, hs₂, if_pos hstopping, resume_drain]
  | case8 s evs s₁ hs₁ hdone hup evs₂ es s₂ hs₂ hstopping ih =>
    simp only [resume, hs₁, wake, if_neg hdone, if_neg hup, hs₂, if_neg hstopping, ih]

/-- A loop that never sees the end of its operation never returns. -/
theorem resume_ne_ret {p : Poller σ ε} {Lost : σ → Prop}
    (hdeliver : ∀ s e s', Lost s → p.deliver s e = some s' → Lost s')
    (hnot : ∀ s, Lost s → p.isDone s = false) (htick : ∀ s, Lost s → Lost (p.tick s))
    (hstop : ∀ s, Lost s → Lost (p.stop s)) {s s' : σ} (hs : Lost s) (stage : Stage) {exit : Exit}
    (es : List (List ε)) {es' : List (List ε)} : p.resume stage s es ≠ .ret exit s' es' := by
  -- by induction on the schedule, at whatever place the loop is
  induction es generalizing stage s with
  | nil => nofun
  | cons evs es ih =>
    rw [resume]
    cases hevs : deliverAll p.deliver s evs with
    | error s₁ => nofun
    | ok s₁ =>
      have hs₁ := deliverAll_invariant hdeliver hs hevs
      have hnot₁ := hnot s₁ hs₁
      -- wherever it wakes up it goes on
      cases stage with
      | look =>
        cases hup : p.timeUp s₁ with
        | true =>
          simp only [wake, hnot₁, hup, Bool.false_eq_true, if_false, if_true]
          exact ih hs₁ _
        | false =>
          simp only [wake, hnot₁, hup, Bool.false_eq_true, if_false]
          exact ih (htick s₁ hs₁) _
      | pause =>
        cases hstopping : p.isStopping s₁ with
        | true =>
          simp only [wake, hstopping, if_true]
          exact ih (hstop s₁ hs₁) _
        | false =>
          simp only [wake, hstopping, Bool.false_eq_true, if_false]
          exact ih hs₁ _
      | drain exit =>
        simp only [wake, hnot₁, Bool.false_eq_true, if_false]
        exact ih hs₁ _

/-- A loop that waits for one completion and is not told to stop: `Running` holds until the
completion, whatever event that is `Quiet` happens, and `Finished` after it. The events do not
see the ticks, which `core` forgets. -/
structure Awaits {κ : Type} (p : Poller σ ε) (Running Finished : σ → Prop) (Quiet Late : ε → Prop)
    (core : σ → κ) (deliverCore : κ → ε → Option κ) : Prop where
  quiet : ∀ s e s', Running s → Quiet e → p.deliver s e = some s' → Running s'
  tick : ∀ s, Running s → Running (p.tick s)
  not_done : ∀ s, Running s → p.isDone s = false
  not_stopping : ∀ s, Running s ∨ Finished s → p.isStopping s = false
  done : ∀ s, Finished s → p.isDone s = true
  late : ∀ s e, Finished s → Late e → ∃ s', p.deliver s e = some s' ∧ Finished s'
  deliver_core : ∀ s e, (p.deliver s e).map core = deliverCore (core s) e
  tick_core : ∀ s, core (p.tick s) = core s

section Awaits

variable {κ : Type} {p : Poller σ ε} {Running Finished : σ → Prop} {Quiet Late : ε → Prop}
  {core : σ → κ} {deliverCore : κ → ε → Option κ} {s : σ}

/-- Events crash with and without the ticks. -/
theorem Awaits.deliverAll_core (h : p.Awaits Running Finished Quiet Late core deliverCore) (s : σ)
    (evs : List ε) : (deliverAll p.deliver s evs).toOption.map core =
      (deliverAll deliverCore (core s) evs).toOption := by
  induction evs generalizing s with
  | nil => rfl
  | cons e evs ih =>
    rw [deliverAll, deliverAll, ← h.deliver_core]
    cases p.deliver s e with
    | none => rfl
    | some s' => exact ih s'

theorem Awaits.deliverAll_quiet (h : p.Awaits Running Finished Quiet Late core deliverCore)
    (hs : Running s) {evs : List ε} (hevs : ∀ e ∈ evs, Quiet e) {s' : σ}
    (hs' : deliverAll p.deliver s evs = .ok s') : Running s' := by
  induction evs generalizing s with
  | nil =>
    obtain rfl := Except.ok.inj hs'
    exact hs
  | cons e evs ih =>
    rw [deliverAll] at hs'
    split at hs'
    next => cases hs'
    next s₁ hs₁ =>
      exact ih (h.quiet s e s₁ hs (hevs e (by simp)) hs₁) (fun e he => hevs e (by simp [he])) hs'

theorem Awaits.deliverAll_late (h : p.Awaits Running Finished Quiet Late core deliverCore)
    (hs : Finished s) {evs : List ε} (hevs : ∀ e ∈ evs, Late e) :
    ∃ s', deliverAll p.deliver s evs = .ok s' ∧ Finished s' := by
  induction evs generalizing s with
  | nil => exact ⟨s, rfl, hs⟩
  | cons e evs ih =>
    obtain ⟨s₁, hs₁, hfin⟩ := h.late s e hs (hevs e (by simp))
    obtain ⟨s₂, hs₂, hfin₂⟩ := ih hfin fun e he => hevs e (by simp [he])
    refine ⟨s₂, ?_, hfin₂⟩
    rw [deliverAll, hs₁]
    exact hs₂

/-- A worker that waits for the completion only goes on waiting. -/
theorem Awaits.wake (h : p.Awaits Running Finished Quiet Late core deliverCore) (hs : Running s)
    (stage : Stage) :
    ∃ stage' s', p.wake stage s = .inr (stage', s') ∧ Running s' ∧ core s' = core s := by
  cases stage with
  | look =>
    cases hup : p.timeUp s with
    | true => exact ⟨.drain .timeout, s, by simp [Poller.wake, h.not_done s hs, hup], hs, rfl⟩
    | false =>
      exact ⟨.pause, p.tick s, by simp [Poller.wake, h.not_done s hs, hup], h.tick s hs,
        h.tick_core s⟩
  | pause =>
    exact ⟨.look, s, by simp [Poller.wake, h.not_stopping s (.inl hs)], hs, rfl⟩
  | drain exit => exact ⟨.drain exit, s, by simp [Poller.wake, h.not_done s hs], hs, rfl⟩

/-- The sleeps before the completion. -/
theorem Awaits.resume_quiet (h : p.Awaits Running Finished Quiet Late core deliverCore)
    (hs : Running s) (stage : Stage) {pre : List (List ε)} (hpre : ∀ evs ∈ pre, ∀ e ∈ evs, Quiet e)
    (es : List (List ε)) :
    match (deliverAll deliverCore (core s) pre.flatten).toOption with
    | none => ∃ s', p.resume stage s (pre ++ es) = .crashed s'
    | some k => ∃ stage' s', p.resume stage s (pre ++ es) = p.resume stage' s' es ∧ Running s' ∧
        core s' = k := by
  induction pre generalizing stage s with
  | nil => exact ⟨stage, s, rfl, hs, rfl⟩
  | cons evs pre ih =>
    rw [List.flatten_cons, deliverAll_append, List.cons_append, resume]
    have hcore := h.deliverAll_core s evs
    cases hevs : deliverAll p.deliver s evs with
    | error s₁ =>
      -- an event crashes in the loop, and in the core as well
      rw [hevs] at hcore
      cases hk : deliverAll deliverCore (core s) evs with
      | error k => exact ⟨s₁, rfl⟩
      | ok k => simp [hk, Except.toOption] at hcore
    | ok s₁ =>
      rw [hevs] at hcore
      cases hk : deliverAll deliverCore (core s) evs with
      | error k => simp [hk, Except.toOption] at hcore
      | ok k =>
        -- both make the same of the core
        obtain rfl : core s₁ = k := by simpa [hk, Except.toOption] using hcore
        have hs₁ := h.deliverAll_quiet hs (hpre evs (by simp)) hevs
        obtain ⟨stage', s₂, hwake, hs₂, hcore₂⟩ := h.wake hs₁ stage
        have hrest := ih hs₂ stage' fun evs hevs => hpre evs (by simp [hevs])
        rw [hcore₂] at hrest
        simpa only [hwake, Except.bind] using hrest

variable {pre rest : List (List ε)} {before after next : List ε} {e : ε}

/-- The completion, after quiet events. -/
theorem Awaits.finished_of_deliverAll (h : p.Awaits Running Finished Quiet Late core deliverCore)
    (he : ∀ s s', Running s → p.deliver s e = some s' → Finished s') (hs : Running s)
    (hbefore : ∀ e ∈ before, Quiet e) {s' : σ}
    (hevs : deliverAll p.deliver s (before ++ [e]) = .ok s') : Finished s' := by
  rw [deliverAll_append] at hevs
  cases hb : deliverAll p.deliver s before with
  | error s₁ => simp [hb, Except.bind] at hevs
  | ok s₁ =>
    simp only [hb, Except.bind, deliverAll] at hevs
    split at hevs
    next => cases hevs
    next s₂ hs₂ =>
      obtain rfl := Except.ok.inj hevs
      exact he s₁ s₂ (h.deliverAll_quiet hs hbefore hb) hs₂

variable (rest) in
/-- The sleep with the completion, and one more where the worker looks only then. -/
theorem Awaits.resume_finished (h : p.Awaits Running Finished Quiet Late core deliverCore)
    (hs : Finished s) (stage : Stage) (hnext : ∀ e ∈ next, Late e) :
    (∃ exit, p.wake stage s = .inl exit) ∨
      ∃ exit s', p.wake stage s = .inr (.look, s) ∧
        p.resume .look s (next :: rest) = .ret exit s' rest := by
  cases stage with
  | look => exact .inl ⟨.done, by simp [Poller.wake, h.done s hs]⟩
  | pause =>
    obtain ⟨s', hs', hfin⟩ := h.deliverAll_late hs hnext
    refine .inr ⟨.done, s', by simp [Poller.wake, h.not_stopping s (.inr hs)], ?_⟩
    simp [resume, hs', Poller.wake, h.done s' hfin]
  | drain exit => exact .inl ⟨exit, by simp [Poller.wake, h.done s hs]⟩

variable (rest) in
/-- **A completion releases the loop**, in the sleep it comes in or in the next, exactly if the
events up to it do not crash. -/
theorem Awaits.poll_ret_iff (h : p.Awaits Running Finished Quiet Late core deliverCore)
    (he : ∀ s s', Running s → p.deliver s e = some s' → Finished s') (hs : Running s)
    (hpre : ∀ evs ∈ pre, ∀ e ∈ evs, Quiet e) (hbefore : ∀ e ∈ before, Quiet e)
    (hafter : ∀ e ∈ after, Late e) (hnext : ∀ e ∈ next, Late e) :
    (∃ exit s' es', p.poll s (pre ++ (before ++ e :: after) :: next :: rest) = .ret exit s' es' ∧
        (es' = next :: rest ∨ es' = rest)) ↔
      ∃ s', deliverAll p.deliver s (pre.flatten ++ before ++ [e]) = .ok s' := by
  -- the events crash the system exactly if they crash its core
  have hcrash : (∃ s', deliverAll p.deliver s (pre.flatten ++ before ++ [e]) = .ok s') ↔
      ∃ k, deliverAll deliverCore (core s) (pre.flatten ++ (before ++ [e])) = .ok k := by
    have hcore := h.deliverAll_core s (pre.flatten ++ (before ++ [e]))
    rw [List.append_assoc]
    cases hd : deliverAll p.deliver s (pre.flatten ++ (before ++ [e])) <;>
      cases hk : deliverAll deliverCore (core s) (pre.flatten ++ (before ++ [e])) <;>
      simp_all [Except.toOption]
  rw [hcrash, ← resume_look, deliverAll_append]
  have hquiet := h.resume_quiet hs .look hpre ((before ++ e :: after) :: next :: rest)
  -- the sleeps before the one with the completion
  cases hpre' : deliverAll deliverCore (core s) pre.flatten with
  | error k =>
    rw [hpre'] at hquiet
    obtain ⟨s₁, hs₁⟩ := hquiet
    simp [hs₁, Except.bind]
  | ok k =>
    rw [hpre'] at hquiet
    obtain ⟨stage, s₁, hresume, hs₁, rfl⟩ := hquiet
    rw [hresume, resume]
    -- the sleep with the completion, up to it
    have hsplit : before ++ e :: after = (before ++ [e]) ++ after := by simp
    have hcore := h.deliverAll_core s₁ (before ++ [e])
    rw [hsplit, deliverAll_append]
    cases hevs : deliverAll p.deliver s₁ (before ++ [e]) with
    | error s₂ =>
      rw [hevs] at hcore
      cases hk : deliverAll deliverCore (core s₁) (before ++ [e]) with
      | error k => simp [Except.bind, hk]
      | ok k => simp [hk, Except.toOption] at hcore
    | ok s₂ =>
      rw [hevs] at hcore
      cases hk : deliverAll deliverCore (core s₁) (before ++ [e]) with
      | error k => simp [hk, Except.toOption] at hcore
      | ok k =>
        -- what comes behind it changes nothing, and the loop leaves now or at the next look
        have hfin := h.finished_of_deliverAll he hs₁ hbefore hevs
        obtain ⟨s₃, hs₃, hfin₃⟩ := h.deliverAll_late hfin hafter
        refine iff_of_true ?_ ⟨k, by simp [Except.bind, hk]⟩
        simp only [Except.bind, hs₃]
        rcases h.resume_finished rest hfin₃ stage hnext with
          ⟨exit, hwake⟩ | ⟨exit, s', hwake, hlook⟩
        · exact ⟨exit, s₃, _, by rw [hwake], .inl rfl⟩
        · exact ⟨exit, s', rest, by rw [hwake]; exact hlook, .inr rfl⟩

variable (rest) in
/-- Where nothing happens in the sleep after the completion, the loop ends in the state that the
events up to the completion lead to, but for the ticks. -/
theorem Awaits.poll_core (h : p.Awaits Running Finished Quiet Late core deliverCore)
    (he : ∀ s s', Running s → p.deliver s e = some s' → Finished s') (hs : Running s)
    (hpre : ∀ evs ∈ pre, ∀ e ∈ evs, Quiet e) (hbefore : ∀ e ∈ before, Quiet e) :
    match (deliverAll deliverCore (core s) (pre.flatten ++ before ++ [e])).toOption with
    | none => ∃ s', p.poll s (pre ++ (before ++ [e]) :: [] :: rest) = .crashed s'
    | some k => ∃ exit s' es', p.poll s (pre ++ (before ++ [e]) :: [] :: rest) = .ret exit s' es' ∧
        (es' = [] :: rest ∨ es' = rest) ∧ core s' = k ∧ Finished s' := by
  rw [← resume_look, List.append_assoc, deliverAll_append]
  have hquiet := h.resume_quiet hs .look hpre ((before ++ [e]) :: [] :: rest)
  -- the sleeps before
  cases hpre' : deliverAll deliverCore (core s) pre.flatten with
  | error k =>
    rw [hpre'] at hquiet
    exact hquiet
  | ok k =>
    rw [hpre'] at hquiet
    obtain ⟨stage, s₁, hresume, hs₁, rfl⟩ := hquiet
    have hcore := h.deliverAll_core s₁ (before ++ [e])
    simp only [Except.bind, ← hcore]
    rw [hresume, resume]
    -- the sleep with the completion
    cases hevs : deliverAll p.deliver s₁ (before ++ [e]) with
    | error s₂ => exact ⟨s₂, rfl⟩
    | ok s₂ =>
      have hfin := h.finished_of_deliverAll he hs₁ hbefore hevs
      change ∃ exit s' es', _ ∧ _ ∧ core s' = core s₂ ∧ _
      -- in the first loop the state is looked at now or after the next sleep, in the second now
      cases stage with
      | look => exact ⟨.done, s₂, _, by simp [Poller.wake, h.done s₂ hfin], .inl rfl, rfl, hfin⟩
      | pause =>
        refine ⟨.done, s₂, rest, ?_, .inr rfl, rfl, hfin⟩
        simp [Poller.wake, h.not_stopping s₂ (.inr hfin), resume, deliverAll, h.done s₂ hfin]
      | drain exit =>
        exact ⟨exit, s₂, _, by simp [Poller.wake, h.done s₂ hfin], .inl rfl, rfl, hfin⟩

/-- A completion after which the loop cannot see that the operation is done does not. -/
theorem Awaits.poll_ne_ret (h : p.Awaits Running Finished Quiet Late core deliverCore)
    {Lost : σ → Prop} (hdeliver : ∀ s e s', Lost s → p.deliver s e = some s' → Lost s')
    (hnot : ∀ s, Lost s → p.isDone s = false) (htick : ∀ s, Lost s → Lost (p.tick s))
    (hstop : ∀ s, Lost s → Lost (p.stop s))
    (he : ∀ s s', Running s → p.deliver s e = some s' → Lost s') (hs : Running s)
    (hpre : ∀ evs ∈ pre, ∀ e ∈ evs, Quiet e) (hbefore : ∀ e ∈ before, Quiet e) {exit : Exit}
    {s' : σ} {es' : List (List ε)} :
    p.poll s (pre ++ (before ++ e :: after) :: rest) ≠ .ret exit s' es' := by
  rw [← resume_look]
  have hquiet := h.resume_quiet hs .look hpre ((before ++ e :: after) :: rest)
  -- the sleeps before
  cases hpre' : (deliverAll deliverCore (core s) pre.flatten).toOption with
  | none =>
    rw [hpre'] at hquiet
    obtain ⟨s₁, hs₁⟩ := hquiet
    simp [hs₁]
  | some k =>
    rw [hpre'] at hquiet
    obtain ⟨stage, s₁, hresume, hs₁, -⟩ := hquiet
    rw [hresume, resume, deliverAll_append]
    -- the sleep with the completion: it crashes, or from then on the loop is lost
    cases hb : deliverAll p.deliver s₁ before with
    | error s₂ =>
      intro hret
      cases hret
    | ok s₂ =>
      have hs₂ := h.deliverAll_quiet hs₁ hbefore hb
      simp only [Except.bind, deliverAll]
      cases hd : p.deliver s₂ e with
      | none =>
        intro hret
        cases hret
      | some s₃ =>
        have hlost := he s₂ s₃ hs₂ hd
        have hnever : p.resume stage s₃ (after :: rest) ≠ .ret exit s' es' :=
          resume_ne_ret hdeliver hnot htick hstop hlost stage (after :: rest)
        exact hnever

end Awaits

end Poller

end Process
