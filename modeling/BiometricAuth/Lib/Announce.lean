import BiometricAuth.Lib.Machine

/-!
# Announced changes

A server holds a value that its threads change at any time. A client wants to know how the
value looks (`view`), but it is not sent the value: a thread that changes it announces
afterwards that there has been a change, and the client then asks. While it waits for the
answer, the client handles no further announcement; they queue up.

What the server sends arrives in order, and the answer to a question is how the value looks when
the question is served, not when it was asked. The value may have changed again, and the change been
announced, by the time the answer is sent. A thread may do other things between a change and its
announcement, and may make announcements the client does not care about.

Main results:

* `run_shown`: when nothing is under way any more, the client shows how the value looks, whatever
  the order of the steps was;
* `run_settles`: once no thread starts anything new, this is the case after a number of steps that
  is known in advance.
-/

namespace Announce

open Machine

variable {T V R : Type}

/-- A step of a thread of the server. -/
inductive Act (V : Type)
  | write (f : V → V)
  /-- An announcement; `about` tells whether the client cares. -/
  | announce (about : Bool)

/-- A change of how the value looks is announced later. -/
def Announced (view : V → R) : List (Act V) → Prop
  | [] => True
  | .write f :: acts => ((∀ v, view (f v) = view v) ∨ .announce true ∈ acts) ∧ Announced view acts
  | .announce _ :: acts => Announced view acts

/-- What a thread does, with an announcement for every change. -/
structure Job (view : V → R) where
  acts : List (Act V)
  announced : Announced view acts

/-- What the server sends. -/
inductive Message (R : Type)
  | changed (about : Bool)
  | answer (r : R)

/-- The answer that a message is. -/
def Message.answer? : Message R → Option R
  | .changed _ => none
  | .answer r => some r

/-- The server, the client and what is between them. -/
structure State (T V R : Type) where
  value : V
  /-- What the threads still have to do. -/
  todo : T → List (Act V)
  /-- What the server has sent and the client has not received. -/
  inbox : List (Message R)
  /-- The announcements the client has received and not handled. -/
  backlog : List Bool
  /-- A question is on its way to the server. -/
  asked : Bool
  /-- What the server has read for an answer it has not sent. -/
  read : Option R
  /-- The client waits for an answer. -/
  waiting : Bool
  /-- The last answer the client was given. -/
  shown : Option R

/-- A step of the server or the client. -/
inductive Step (T : Type) (view : V → R)
  /-- A thread that has nothing to do is given a job. -/
  | start (t : T) (job : Job view)
  /-- A thread goes on. -/
  | act (t : T)
  /-- The client receives the next message. -/
  | receive
  /-- The client handles the next announcement. -/
  | handle
  /-- The client asks of its own accord. -/
  | ask
  /-- The server reads the value for an answer. -/
  | serve
  /-- It sends the answer. -/
  | reply

/-- A step that does what is under way, and begins nothing. -/
def Step.Settles {view : V → R} : Step T view → Prop
  | .start .. | .ask => False
  | .act _ | .receive | .handle | .serve | .reply => True

namespace State

variable [DecidableEq T] (view : V → R)

/-- One step; `none` where it is not enabled. -/
def step (s : State T V R) : Step T view → Option (State T V R)
  | .start t job =>
    if (s.todo t).isEmpty then some { s with todo := Function.update s.todo t job.acts } else none
  | .act t =>
    match s.todo t with
    | [] => none
    | .write f :: acts =>
      some { s with value := f s.value, todo := Function.update s.todo t acts }
    | .announce about :: acts =>
      some { s with
        inbox := s.inbox ++ [.changed about]
        todo := Function.update s.todo t acts }
  | .receive =>
    match s.inbox with
    | [] => none
    | .changed about :: inbox => some { s with inbox := inbox, backlog := s.backlog ++ [about] }
    | .answer r :: inbox => some { s with inbox := inbox, shown := some r, waiting := false }
  | .handle =>
    match s.waiting, s.backlog with
    | false, about :: backlog =>
      some { s with backlog := backlog, asked := about, waiting := about }
    | _, _ => none
  | .ask => if s.waiting then none else some { s with asked := true, waiting := true }
  | .serve => if s.asked then some { s with asked := false, read := some (view s.value) } else none
  | .reply =>
    match s.read with
    | none => none
    | some r => some { s with read := none, inbox := s.inbox ++ [.answer r] }

/-- The value at the beginning, with a client that has just begun to listen. -/
def init (T : Type) (R : Type) (v : V) : State T V R where
  value := v
  todo _ := []
  inbox := []
  backlog := []
  asked := false
  read := none
  waiting := false
  shown := none

/-! ### The properties -/

/-- Nothing is under way. -/
structure Quiet (s : State T V R) : Prop where
  todo : ∀ t, s.todo t = []
  inbox : s.inbox = []
  backlog : s.backlog = []
  asked : s.asked = false
  read : s.read = none

/-- The answers on their way to the client, and the one that is to be sent. -/
def answers (s : State T V R) : List R := s.inbox.filterMap Message.answer? ++ s.read.toList

/-- The last answer that is there for the client. -/
def latest (s : State T V R) : Option R := s.answers.getLast?.or s.shown

/-- The client will ask again. -/
inductive WillAsk (s : State T V R) : Prop
  | todo (t : T) (h : .announce true ∈ s.todo t)
  | inbox (h : .changed true ∈ s.inbox)
  | backlog (h : true ∈ s.backlog)
  | asked (h : s.asked = true)

/-- What is known in every state of a run that began with `v₀`: unless the client will ask again,
the last answer is up to date. -/
structure Inv (v₀ : V) (s : State T V R) : Prop where
  announced : ∀ t, Announced view (s.todo t)
  upToDate : s.WillAsk ∨ s.latest.getD (view v₀) = view s.value
  /-- A client that waits has one question or answer under way, any other has none. -/
  waiting : s.answers.length + s.asked.toNat = s.waiting.toNat

omit [DecidableEq T] in
theorem inv_init (v₀ : V) : Inv view v₀ (init T R v₀) :=
  ⟨fun _ => trivial, .inr rfl, rfl⟩

/-! ### The steps -/

section Steps

variable {view} {s s' : State T V R} {v₀ : V}

/-- A thread that goes on or begins keeps to what it has to do. -/
theorem Inv.announced_update (h : s.Inv view v₀) {t : T} {acts : List (Act V)}
    (hacts : Announced view acts) (t' : T) :
    Announced view (Function.update s.todo t acts t') := by
  by_cases ht : t' = t
  · subst ht
    simpa using hacts
  · simpa [ht] using h.announced t'

/-- What a thread does is not an announcement the client cares about: then the announcements to
come are the same. -/
theorem WillAsk.update (h : s.WillAsk) {t : T} {act : Act V} {acts : List (Act V)}
    (htodo : s.todo t = act :: acts) (hact : act ≠ .announce true)
    (htodo' : s'.todo = Function.update s.todo t acts) (hinbox : s.inbox ⊆ s'.inbox)
    (hbacklog : s'.backlog = s.backlog) (hasked : s'.asked = s.asked) : s'.WillAsk := by
  cases h with
  | todo t' hmem =>
    refine .todo t' ?_
    rw [htodo']
    by_cases ht : t' = t
    · subst ht
      rw [htodo] at hmem
      simpa [hact.symm] using hmem
    · simpa [ht] using hmem
  | inbox h => exact .inbox (hinbox h)
  | backlog h => exact .backlog (hbacklog ▸ h)
  | asked h => exact .asked (hasked.trans h)

theorem Inv.start (h : s.Inv view v₀) {t : T} {job : Job view} (htodo : s.todo t = []) :
    Inv view v₀ { s with todo := Function.update s.todo t job.acts } := by
  refine ⟨h.announced_update job.announced, h.upToDate.imp_left fun hask => ?_, h.waiting⟩
  cases hask with
  | todo t' hmem =>
    have hne : t' ≠ t := by
      rintro rfl
      simp [htodo] at hmem
    exact .todo t' (by simpa [hne] using hmem)
  | inbox h => exact .inbox h
  | backlog h => exact .backlog h
  | asked h => exact .asked h

/-- The change is announced later, or nobody can tell. -/
theorem Inv.write (h : s.Inv view v₀) {t : T} {f : V → V} {acts : List (Act V)}
    (htodo : s.todo t = .write f :: acts) :
    Inv view v₀ { s with value := f s.value, todo := Function.update s.todo t acts } := by
  have hacts := h.announced t
  rw [htodo] at hacts
  refine ⟨h.announced_update hacts.2, ?_, h.waiting⟩
  rcases hacts.1 with hsame | hlater
  · exact h.upToDate.imp (fun hask => hask.update htodo nofun rfl (fun _ hm => hm) rfl rfl)
      fun hlatest => hlatest.trans (hsame s.value).symm
  · exact .inl (.todo t (by simpa using hlater))

omit [DecidableEq T] in
theorem answers_append_changed (s : State T V R) (about : Bool) :
    (s.inbox ++ [Message.changed about]).filterMap Message.answer? ++ s.read.toList =
      s.answers := by
  rw [List.filterMap_append]
  exact congrArg (· ++ s.read.toList) (List.append_nil _)

theorem Inv.announce (h : s.Inv view v₀) {t : T} {about : Bool} {acts : List (Act V)}
    (htodo : s.todo t = .announce about :: acts) :
    Inv view v₀ { s with
      inbox := s.inbox ++ [.changed about], todo := Function.update s.todo t acts } := by
  have hacts := h.announced t
  rw [htodo] at hacts
  refine ⟨h.announced_update hacts, ?_, ?_⟩
  · cases about with
    | true => exact .inl (.inbox (by simp))
    | false =>
      refine h.upToDate.imp (fun hask => ?_) fun hlatest => ?_
      · exact hask.update htodo (by simp) rfl (List.subset_append_left _ _) rfl rfl
      · rwa [latest, answers, answers_append_changed]
  · rw [answers, answers_append_changed]
    exact h.waiting

omit [DecidableEq T] in
theorem Inv.receive_changed (h : s.Inv view v₀) {about : Bool} {inbox : List (Message R)}
    (hinbox : s.inbox = .changed about :: inbox) :
    Inv view v₀ { s with inbox := inbox, backlog := s.backlog ++ [about] } := by
  have hanswers : inbox.filterMap Message.answer? ++ s.read.toList = s.answers := by
    rw [answers, hinbox]
    rfl
  refine ⟨h.announced, h.upToDate.imp (fun hask => ?_) fun hlatest => ?_, ?_⟩
  · cases hask with
    | todo t hmem => exact .todo t hmem
    | inbox hmem =>
      rw [hinbox] at hmem
      rcases List.mem_cons.mp hmem with heq | hmem
      · cases heq
        exact .backlog (by simp)
      · exact .inbox hmem
    | backlog hmem => exact .backlog (List.mem_append_left _ hmem)
    | asked hasked => exact .asked hasked
  · rwa [latest, answers, hanswers]
  · rw [answers, hanswers]
    exact h.waiting

omit [DecidableEq T] in
/-- The answer is the only one, and there is no other question. -/
theorem Inv.receive_answer (h : s.Inv view v₀) {r : R} {inbox : List (Message R)}
    (hinbox : s.inbox = .answer r :: inbox) :
    Inv view v₀ { s with inbox := inbox, shown := some r, waiting := false } := by
  -- the answer is the first of those under way
  have hanswers : s.answers = r :: (inbox.filterMap Message.answer? ++ s.read.toList) := by
    rw [answers, hinbox]
    rfl
  have hwaiting := h.waiting
  rw [hanswers, List.length_cons] at hwaiting
  have hle := s.waiting.toNat_le
  -- there is at most one, as nobody asks twice
  have hnone : inbox.filterMap Message.answer? ++ s.read.toList = [] :=
    List.length_eq_zero_iff.mp (by omega)
  -- and the client waits for none after it
  have hasked : s.asked.toNat = 0 := by omega
  refine ⟨h.announced, h.upToDate.imp (fun hask => ?_) fun hlatest => ?_, ?_⟩
  · -- what was left to say is still to come
    cases hask with
    | todo t hmem => exact .todo t hmem
    | inbox hmem => exact .inbox (by simpa [hinbox] using hmem)
    | backlog hmem => exact .backlog hmem
    | asked hask => simp [hask] at hasked
  · -- the latest answer is now shown
    rw [latest, hanswers, hnone] at hlatest
    rwa [latest, answers, hnone]
  · rw [answers, hnone]
    exact (Nat.zero_add _).trans hasked

omit [DecidableEq T] in
/-- A client that does not wait has nothing on its way. -/
theorem Inv.of_not_waiting (h : s.Inv view v₀) (hwaiting : s.waiting = false) :
    s.answers = [] ∧ s.asked = false := by
  have := h.waiting
  rw [hwaiting, Bool.toNat_false, Nat.add_eq_zero_iff, List.length_eq_zero_iff] at this
  exact this.imp_right fun hasked => by simpa using hasked

omit [DecidableEq T] in
theorem Inv.handle (h : s.Inv view v₀) {about : Bool} {backlog : List Bool}
    (hwaiting : s.waiting = false) (hbacklog : s.backlog = about :: backlog) :
    Inv view v₀ { s with backlog := backlog, asked := about, waiting := about } := by
  obtain ⟨hanswers, hasked⟩ := h.of_not_waiting hwaiting
  refine ⟨h.announced, ?_, ?_⟩
  · cases about with
    | true => exact .inl (.asked rfl)
    | false =>
      refine h.upToDate.imp_left fun hask => ?_
      cases hask with
      | todo t hmem => exact .todo t hmem
      | inbox hmem => exact .inbox hmem
      | backlog hmem => exact .backlog (by simpa [hbacklog] using hmem)
      | asked hask => simp [hask] at hasked
  · change s.answers.length + about.toNat = about.toNat
    rw [hanswers, List.length_nil, Nat.zero_add]

omit [DecidableEq T] in
theorem Inv.ask (h : s.Inv view v₀) (hwaiting : s.waiting = false) :
    Inv view v₀ { s with asked := true, waiting := true } := by
  refine ⟨h.announced, .inl (.asked rfl), ?_⟩
  change s.answers.length + 1 = 1
  rw [(h.of_not_waiting hwaiting).1, List.length_nil]

omit [DecidableEq T] in
/-- The answer is how the value looks now, and no other is under way. -/
theorem Inv.serve (h : s.Inv view v₀) (hasked : s.asked = true) :
    Inv view v₀ { s with asked := false, read := some (view s.value) } := by
  have hwaiting := h.waiting
  rw [hasked, Bool.toNat_true] at hwaiting
  have hle := s.waiting.toNat_le
  have hnone : s.answers = [] := List.length_eq_zero_iff.mp (by omega)
  obtain ⟨hinbox, -⟩ := List.append_eq_nil_iff.mp hnone
  refine ⟨h.announced, .inr ?_, ?_⟩
  · rw [latest, answers, hinbox]
    rfl
  · rw [hnone] at hwaiting
    rw [answers, hinbox]
    exact hwaiting

omit [DecidableEq T] in
/-- What was read is the answer, whatever has become of the value since. -/
theorem Inv.reply (h : s.Inv view v₀) {r : R} (hread : s.read = some r) :
    Inv view v₀ { s with read := none, inbox := s.inbox ++ [.answer r] } := by
  have hanswers : (s.inbox ++ [Message.answer r]).filterMap Message.answer? ++
      (none : Option R).toList = s.answers := by
    rw [List.filterMap_append, answers, hread]
    exact List.append_nil _
  refine ⟨h.announced, h.upToDate.imp (fun hask => ?_) fun hlatest => ?_, ?_⟩
  · cases hask with
    | todo t hmem => exact .todo t hmem
    | inbox hmem => exact .inbox (List.mem_append_left _ hmem)
    | backlog hmem => exact .backlog hmem
    | asked hask => exact .asked hask
  · rwa [latest, answers, hanswers]
  · rw [answers, hanswers]
    exact h.waiting

/-- What a step has done. -/
inductive Stepped (view : V → R) (s : State T V R) : Step T view → State T V R → Prop
  | start (t : T) (job : Job view) (htodo : s.todo t = []) :
      Stepped view s (.start t job) { s with todo := Function.update s.todo t job.acts }
  | write (t : T) {f : V → V} {acts : List (Act V)} (htodo : s.todo t = .write f :: acts) :
      Stepped view s (.act t)
        { s with value := f s.value, todo := Function.update s.todo t acts }
  | announce (t : T) {about : Bool} {acts : List (Act V)}
      (htodo : s.todo t = .announce about :: acts) :
      Stepped view s (.act t)
        { s with inbox := s.inbox ++ [.changed about], todo := Function.update s.todo t acts }
  | receiveChanged {about : Bool} {inbox : List (Message R)}
      (hinbox : s.inbox = .changed about :: inbox) :
      Stepped view s .receive { s with inbox := inbox, backlog := s.backlog ++ [about] }
  | receiveAnswer {r : R} {inbox : List (Message R)} (hinbox : s.inbox = .answer r :: inbox) :
      Stepped view s .receive { s with inbox := inbox, shown := some r, waiting := false }
  | handle {about : Bool} {backlog : List Bool} (hwaiting : s.waiting = false)
      (hbacklog : s.backlog = about :: backlog) :
      Stepped view s .handle { s with backlog := backlog, asked := about, waiting := about }
  | ask (hwaiting : s.waiting = false) :
      Stepped view s .ask { s with asked := true, waiting := true }
  | serve (hasked : s.asked = true) :
      Stepped view s .serve { s with asked := false, read := some (view s.value) }
  | reply {r : R} (hread : s.read = some r) :
      Stepped view s .reply { s with read := none, inbox := s.inbox ++ [.answer r] }

/-- Every case of `step`. -/
theorem step_inv {a : Step T view} (h : s.step view a = some s') : Stepped view s a s' := by
  cases a with
  | start t job =>
    obtain ⟨htodo, h⟩ := Option.ite_none_right_eq_some.mp h
    obtain rfl := Option.some.inj h
    exact .start t job (List.isEmpty_iff.mp htodo)
  | act t =>
    -- the next of the daemon's actions, if one is left
    rw [step] at h
    split at h
    next => cases h
    next f acts htodo =>
      obtain rfl := Option.some.inj h
      exact .write t htodo
    next about acts htodo =>
      obtain rfl := Option.some.inj h
      exact .announce t htodo
  | receive =>
    -- a message is taken from the bus, if there is one
    rw [step] at h
    split at h
    next => cases h
    next about inbox hinbox =>
      obtain rfl := Option.some.inj h
      exact .receiveChanged hinbox
    next r inbox hinbox =>
      obtain rfl := Option.some.inj h
      exact .receiveAnswer hinbox
  | handle =>
    -- the client handles a signal only when it does not wait for an answer
    rw [step] at h
    split at h
    next about backlog hwaiting hbacklog =>
      obtain rfl := Option.some.inj h
      exact .handle hwaiting hbacklog
    next => cases h
  | ask =>
    rw [step] at h
    split at h
    next => cases h
    next hwaiting =>
      obtain rfl := Option.some.inj h
      exact .ask (by simpa using hwaiting)
  | serve =>
    -- the handler answers the call in two steps, and so can be overtaken in between
    obtain ⟨hasked, h⟩ := Option.ite_none_right_eq_some.mp h
    obtain rfl := Option.some.inj h
    exact .serve hasked
  | reply =>
    rw [step] at h
    split at h
    next => cases h
    next r hread =>
      obtain rfl := Option.some.inj h
      exact .reply hread

theorem Inv.step (h : s.Inv view v₀) {a : Step T view} (hstep : s.step view a = some s') :
    s'.Inv view v₀ := by
  cases step_inv hstep with
  | start t job htodo => exact h.start htodo
  | write t htodo => exact h.write htodo
  | announce t htodo => exact h.announce htodo
  | receiveChanged hinbox => exact h.receive_changed hinbox
  | receiveAnswer hinbox => exact h.receive_answer hinbox
  | handle hwaiting hbacklog => exact h.handle hwaiting hbacklog
  | ask hwaiting => exact h.ask hwaiting
  | serve hasked => exact h.serve hasked
  | reply hread => exact h.reply hread

omit [DecidableEq T] in
/-- When nothing is under way the last answer is the one that is shown. -/
theorem Inv.shown (h : s.Inv view v₀) (hquiet : s.Quiet) :
    s.shown.getD (view v₀) = view s.value := by
  have hanswers : s.answers = [] := by
    rw [answers, hquiet.inbox, hquiet.read]
    rfl
  rcases h.upToDate with hask | hlatest
  · cases hask with
    | todo t hmem => simp [hquiet.todo t] at hmem
    | inbox hmem => simp [hquiet.inbox] at hmem
    | backlog hmem => simp [hquiet.backlog] at hmem
    | asked hasked => simp [hquiet.asked] at hasked
  · rwa [latest, hanswers] at hlatest

end Steps

/-- What the client shows at the end of a run is how the value looks, once nothing is under way. -/
theorem run_shown {view : V → R} {v₀ : V} {as : List (Step T view)} {s : State T V R}
    (hrun : run (step view) (init T R v₀) as = some s) (hquiet : s.Quiet) :
    s.shown.getD (view v₀) = view s.value :=
  (run_invariant (P := Inv view v₀) (fun _ _ _ h hstep => h.step hstep) (inv_init view v₀)
    hrun).shown hquiet

/-! ### Settling -/

section Settling

variable [Fintype T] {view : V → R} {s s' : State T V R} {v₀ : V}

/-- The work a message makes. -/
def messageWork : Message R → ℕ
  | .changed _ => 5
  | .answer _ => 1

/-- The work that is still to be done. -/
def work (s : State T V R) : ℕ :=
  6 * ∑ t, (s.todo t).length + (s.inbox.map messageWork).sum + 4 * s.backlog.length +
    3 * s.asked.toNat + 2 * s.read.toList.length

/-- A thread that goes on has one thing less to do. -/
theorem sum_length_update {t : T} {act : Act V} {acts : List (Act V)}
    (htodo : s.todo t = act :: acts) :
    ∑ t', (Function.update s.todo t acts t').length + 1 = ∑ t', (s.todo t').length := by
  rw [← Finset.add_sum_erase _ _ (Finset.mem_univ t), ← Finset.add_sum_erase _ (fun t' =>
    (s.todo t').length) (Finset.mem_univ t), Function.update_self, htodo, List.length_cons]
  have hothers : ∑ t' ∈ Finset.univ.erase t, (Function.update s.todo t acts t').length =
      ∑ t' ∈ Finset.univ.erase t, (s.todo t').length := by
    refine Finset.sum_congr rfl fun t' ht' => ?_
    rw [Function.update_of_ne (Finset.ne_of_mem_erase ht')]
  rw [hothers]
  omega

theorem work_lt {a : Step T view} (ha : a.Settles) (hstep : s.step view a = some s') :
    s'.work < s.work := by
  cases step_inv hstep with
  -- no other step brings in new work
  | start | ask => exact ha.elim
  | write t htodo =>
    have := sum_length_update htodo
    simp only [work]
    omega
  | announce t htodo =>
    have := sum_length_update htodo
    simp only [work, List.map_append, List.sum_append, List.map_cons, List.map_nil,
      List.sum_cons, List.sum_nil, messageWork]
    omega
  | receiveChanged hinbox =>
    simp only [work, hinbox, List.map_cons, List.sum_cons, messageWork, List.length_append,
      List.length_singleton]
    omega
  | receiveAnswer hinbox =>
    simp only [work, hinbox, List.map_cons, List.sum_cons, messageWork]
    omega
  | @handle about backlog hwaiting hbacklog =>
    have := about.toNat_le
    simp only [work, hbacklog, List.length_cons]
    omega
  | serve hasked =>
    simp only [work, hasked, Bool.toNat_true, Bool.toNat_false, Option.toList_some,
      List.length_singleton]
    omega
  | reply hread =>
    simp only [work, hread, List.map_append, List.sum_append, List.map_cons, List.map_nil,
      List.sum_cons, List.sum_nil, messageWork, Option.toList_some, Option.toList_none,
      List.length_singleton, List.length_nil]
    omega

omit [Fintype T] in
/-- As long as something is under way, something can be done. -/
theorem Inv.exists_settles (h : s.Inv view v₀) (hquiet : ¬ s.Quiet) :
    ∃ a : Step T view, a.Settles ∧ (s.step view a).isSome := by
  by_contra! hnone
  -- no thread has anything left to do, and no message is on its way
  have htodo : ∀ t, s.todo t = [] := by
    intro t
    have := hnone (.act t) trivial
    rw [State.step] at this
    split at this
    next htodo => exact htodo
    all_goals simp at this
  have hinbox : s.inbox = [] := by
    have := hnone .receive trivial
    rw [State.step] at this
    split at this
    next hinbox => exact hinbox
    all_goals simp at this
  -- no call is waiting to be served, and none is being served
  have hasked : s.asked = false := by
    have := hnone .serve trivial
    rw [State.step] at this
    split at this
    next => simp at this
    next hasked => simpa using hasked
  have hread : s.read = none := by
    have := hnone .reply trivial
    rw [State.step] at this
    split at this
    next hread => exact hread
    next => simp at this
  -- no question and no answer: the client does not wait, and would go on with its backlog
  have hwaiting : s.waiting = false := by
    have := h.waiting
    rw [answers, hinbox, hasked, hread] at this
    simpa using this.symm
  -- without anything to handle the client has no backlog either
  have hbacklog : s.backlog = [] := by
    have := hnone .handle trivial
    rw [State.step, hwaiting] at this
    cases hb : s.backlog with
    | nil => rfl
    | cons about backlog => simp [hb] at this
  exact hquiet ⟨htodo, hinbox, hbacklog, hasked, hread⟩

end Settling

/-- However the system goes on from a state it can reach, without anything new, it comes to rest
within the work of that state, and does not stop before. -/
theorem run_settles [Fintype T] {view : V → R} {v₀ : V} {as bs : List (Step T view)}
    {s s' : State T V R} (hrun : run (step view) (init T R v₀) as = some s)
    (hbs : ∀ b ∈ bs, b.Settles) (hrun' : run (step view) s bs = some s') :
    bs.length + s'.work ≤ s.work ∧
      (s'.Quiet ∨ ∃ b : Step T view, b.Settles ∧ (s'.step view b).isSome) := by
  refine ⟨run_length_le (fun _ _ _ hb hstep => work_lt hb hstep) hbs hrun', ?_⟩
  have hs : s.Inv view v₀ :=
    run_invariant (fun _ _ _ h hstep => h.step hstep) (inv_init view v₀) hrun
  have hs' : s'.Inv view v₀ := run_invariant (fun _ _ _ h hstep => h.step hstep) hs hrun'
  by_cases hquiet : s'.Quiet
  · exact .inl hquiet
  · exact .inr (hs'.exists_settles hquiet)

end State

end Announce
