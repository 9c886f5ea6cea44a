import Mathlib

/-!
# Scripts of statements, and transactions

A `Script` runs statements on a database of type `δ` one after the other, and stops at the
first that fails; a statement that fails has no effect. What the statements have done before
it stays done, which is what a transaction is for.

A connection (`Conn`) has the committed database and, while a transaction is open, what the
statements have made of it. Outside a transaction every statement is committed by itself.
`transact` is a script between a `BEGIN` and a `COMMIT`, or a `ROLLBACK` where the script
fails, with none of the three results looked at.

Main result: `committed_transact` — the committed database after it, for every combination of
failures.
-/

namespace Transaction

variable {δ α β : Type}

/-! ### Scripts -/

/-- A script ends with a value or at a statement that fails, and in either case with the
database as the statements before have left it. -/
structure Script (δ α : Type) where
  run : δ → Option α × δ

namespace Script

instance : Monad (Script δ) where
  pure a := ⟨fun d => (some a, d)⟩
  bind p f := ⟨fun d =>
    match p.run d with
    | (some a, d') => (f a).run d'
    | (none, d') => (none, d')⟩

/-- A statement; `fails` says that the call fails, and `effect` is `none` where the database
refuses it. -/
def statement (fails : Bool) (effect : δ → Option δ) : Script δ Unit where
  run d :=
    match fails, effect d with
    | false, some d' => (some (), d')
    | _, _ => (none, d)

/-- What a query reads. -/
def query (read : δ → α) : Script δ α := ⟨fun d => (some (read d), d)⟩

@[simp] theorem run_pure (a : α) (d : δ) : (pure a : Script δ α).run d = (some a, d) := rfl

@[simp] theorem run_query (read : δ → α) (d : δ) : (query read).run d = (some (read d), d) := rfl

theorem run_bind (p : Script δ α) (f : α → Script δ β) (d : δ) :
    (p >>= f).run d =
      match p.run d with
      | (some a, d') => (f a).run d'
      | (none, d') => (none, d') := rfl

@[simp] theorem run_query_bind (read : δ → α) (f : α → Script δ β) (d : δ) :
    (query read >>= f).run d = (f (read d)).run d := rfl

theorem statement_true (effect : δ → Option δ) (d : δ) :
    (statement true effect).run d = (none, d) := by
  simp [statement]

theorem statement_none {effect : δ → Option δ} {d : δ} (fails : Bool) (h : effect d = none) :
    (statement fails effect).run d = (none, d) := by
  cases fails <;> simp [statement, h]

theorem statement_some {effect : δ → Option δ} {d d' : δ} (h : effect d = some d') :
    (statement false effect).run d = (some (), d') := by
  simp [statement, h]

theorem bind_of_some {p : Script δ α} {f : α → Script δ β} {d d' : δ} {a : α}
    (h : p.run d = (some a, d')) : (p >>= f).run d = (f a).run d' := by
  rw [run_bind, h]

theorem bind_of_none {p : Script δ α} {f : α → Script δ β} {d d' : δ}
    (h : p.run d = (none, d')) : (p >>= f).run d = (none, d') := by
  rw [run_bind, h]

theorem exists_of_isSome {p : Script δ α} {d : δ} (h : (p.run d).1.isSome) :
    ∃ a d', p.run d = (some a, d') := by
  obtain ⟨a, ha⟩ := Option.isSome_iff_exists.mp h
  exact ⟨a, _, Prod.ext ha rfl⟩

/-- A script that gets through has stopped nowhere. -/
theorem bind_eq_some {p : Script δ α} {f : α → Script δ β} {d d'' : δ} {b : β} :
    (p >>= f).run d = (some b, d'') ↔
      ∃ a d', p.run d = (some a, d') ∧ (f a).run d' = (some b, d'') := by
  constructor
  · intro h
    rcases hrun : p.run d with ⟨_ | a, d'⟩
    · rw [bind_of_none hrun] at h
      cases h
    · rw [bind_of_some hrun] at h
      exact ⟨a, d', rfl, h⟩
  · rintro ⟨a, d', hrun, h⟩
    rw [bind_of_some hrun, h]

theorem statement_eq_some {fails : Bool} {effect : δ → Option δ} {d d' : δ} {u : Unit} :
    (statement fails effect).run d = (some u, d') ↔ fails = false ∧ effect d = some d' := by
  cases fails with
  | true => simp [statement_true]
  | false =>
    cases heffect : effect d with
    | none => simp [statement_none false heffect]
    | some d₁ => simp [statement_some heffect]

/-! ### What a script keeps -/

/-- Wherever the script stops, `P` holds if it held at its start. -/
def Keeps (P : δ → Prop) (p : Script δ α) : Prop := ∀ d, P d → P (p.run d).2

variable {P : δ → Prop}

theorem Keeps.pure (a : α) : Keeps P (pure a : Script δ α) := fun _ h => h

theorem Keeps.query (read : δ → α) : Keeps P (query read) := fun _ h => h

theorem Keeps.statement {fails : Bool} {effect : δ → Option δ}
    (h : ∀ d d', P d → effect d = some d' → P d') : Keeps P (statement fails effect) := by
  intro d hd
  cases fails with
  | true => rwa [statement_true]
  | false =>
    cases heffect : effect d with
    | none => rwa [statement_none false heffect]
    | some d' =>
      rw [statement_some heffect]
      exact h d d' hd heffect

theorem Keeps.bind {p : Script δ α} {f : α → Script δ β} (hp : Keeps P p)
    (hf : ∀ a, Keeps P (f a)) : Keeps P (p >>= f) := by
  intro d hd
  have hkept := hp d hd
  rw [run_bind]
  -- either `p` has stopped the script, or `f` goes on from where `p` ends
  rcases hrun : p.run d with ⟨_ | a, d'⟩
  · rwa [hrun] at hkept
  · rw [hrun] at hkept
    exact hf a d' hkept

end Script

/-! ### Connections -/

/-- A connection to the database. -/
structure Conn (δ : Type) where
  /-- The database as other connections see it, and as it is after a crash. -/
  committed : δ
  /-- What the open transaction has made of it; `none` outside a transaction. -/
  pending : Option δ
deriving DecidableEq

namespace Conn

/-- The database as the statements of the connection see it. -/
def view (c : Conn δ) : δ := c.pending.getD c.committed

/-- The statements of a script see the open transaction; outside one, each is committed by
itself. -/
def perform (p : Script δ α) (c : Conn δ) : Option α × Conn δ :=
  match c.pending with
  | some d => ((p.run d).1, { c with pending := some (p.run d).2 })
  | none => ((p.run c.committed).1, { c with committed := (p.run c.committed).2 })

/-- `BEGIN TRANSACTION`; there is one transaction at a time. -/
def begin (fails : Bool) (c : Conn δ) : Conn δ :=
  if fails ∨ c.pending.isSome then c else { c with pending := some c.committed }

/-- `COMMIT`; an error where there is no transaction. -/
def commit (fails : Bool) (c : Conn δ) : Conn δ :=
  match fails, c.pending with
  | false, some d => { committed := d, pending := none }
  | _, _ => c

/-- `ROLLBACK`; an error where there is no transaction. -/
def rollback (fails : Bool) (c : Conn δ) : Conn δ :=
  if fails then c else { c with pending := none }

@[simp] theorem committed_rollback (fails : Bool) (c : Conn δ) :
    (c.rollback fails).committed = c.committed := by
  unfold rollback
  split <;> rfl

end Conn

/-- A script in a transaction of its own: committed if the script gets through and rolled back
if not. That `BEGIN`, `COMMIT` or `ROLLBACK` failed is not looked at. -/
def transact (beginFails commitFails rollbackFails : Bool) (p : Script δ α) (c : Conn δ) :
    Option α × Conn δ :=
  match (c.begin beginFails).perform p with
  | (some a, c') => (some a, c'.commit commitFails)
  | (none, c') => (none, c'.rollback rollbackFails)

section Transact

variable (beginFails commitFails rollbackFails : Bool) (p : Script δ α) (d : δ)

/-- The script gets through or not, with a transaction around it or without. -/
theorem transact_fst :
    (transact beginFails commitFails rollbackFails p ⟨d, none⟩).1 = (p.run d).1 := by
  have hperform : (((⟨d, none⟩ : Conn δ).begin beginFails).perform p).1 = (p.run d).1 := by
    cases beginFails <;> rfl
  rw [← hperform, transact]
  rcases ((⟨d, none⟩ : Conn δ).begin beginFails).perform p with ⟨_ | a, c'⟩ <;> rfl

/-- **What is committed**: without the `BEGIN`, whatever the script has done; with it, all of
the script or nothing, and nothing where the `COMMIT` fails. -/
theorem committed_transact :
    (transact beginFails commitFails rollbackFails p ⟨d, none⟩).2.committed =
      if beginFails ∨ (p.run d).1.isSome ∧ commitFails = false then (p.run d).2 else d := by
  cases beginFails with
  | true =>
    -- every statement is committed at once
    rw [if_pos (.inl rfl), transact]
    have hperform : ((⟨d, none⟩ : Conn δ).begin true).perform p =
        ((p.run d).1, ⟨(p.run d).2, none⟩) := rfl
    rw [hperform]
    -- a rollback finds no transaction
    cases (p.run d).1 with
    | none => exact Conn.committed_rollback _ _
    | some a => cases commitFails <;> rfl
  | false =>
    have hperform : ((⟨d, none⟩ : Conn δ).begin false).perform p =
      ((p.run d).1, ⟨d, some (p.run d).2⟩) := rfl
    -- the statements change the view only
    rw [transact, hperform]
    cases (p.run d).1 with
    | none =>
      -- a statement failed, and all of them are taken back
      rw [if_neg (by simp)]
      exact Conn.committed_rollback _ _
    | some a =>
      cases commitFails with
      | true =>
        -- the `COMMIT` failed, which takes them back too
        rw [if_neg (by simp)]
        rfl
      | false =>
        -- all of it is committed
        rw [if_pos (.inr ⟨rfl, rfl⟩)]
        rfl

/-- A transaction that is committed, or rolled back, is closed. -/
theorem transact_none (p : Script δ α) (d : δ) :
    transact false false false p ⟨d, none⟩ =
      ((p.run d).1, ⟨if (p.run d).1.isSome then (p.run d).2 else d, none⟩) := by
  have hperform : ((⟨d, none⟩ : Conn δ).begin false).perform p =
    ((p.run d).1, ⟨d, some (p.run d).2⟩) := rfl
  rw [transact, hperform]
  cases (p.run d).1 <;> rfl

end Transact

end Transaction
