import BiometricAuth.Storage.Writer

/-!
# Writes that fail half way

`bio_sto_set_feature_info` inserts its samples one by one and returns at the first `INSERT` that
fails; the rows inserted before stay. `writeInfos_cases` says what every run does, by the position
of the failure.

Main result: `setsAtomically_iff`, for which outcomes of the SQL calls a write is all or nothing.
-/

namespace BiometricAuth

namespace Store

/-- The outcome of the `k`th call to come. -/
def outcome (c : Store) (k : ℕ) : Bool := c.outcomes.getD k true

theorem ok_eq_outcome (c : Store) : c.ok = c.outcome 0 := by
  cases h : c.outcomes <;> simp [ok, outcome, h]

@[simp] theorem outcome_advance (c : Store) (k : ℕ) : c.advance.outcome k = c.outcome (k + 1) := by
  cases h : c.outcomes <;> simp [advance, outcome, h]

@[simp] theorem outcome_step (c : Store) (db : EigenInfo) (k : ℕ) :
    (c.step db).outcome k = c.outcome (k + 1) := by
  cases h : c.outcomes <;> simp [step, outcome, h]

end Store

/-- The number of samples the loop comes to: a feature without samples is as far as it gets. -/
def reachedSamples : List FeatureInfo → ℕ
  | [] => 0
  | info :: infos =>
    if info.samples = [] then 0 else info.samples.length + reachedSamples infos

/-- The rows `news` hold the samples `samples`, under whatever UUIDs. -/
abbrev HoldAll (news : List EigenRow) (samples : List (FeatureInfo × FeatureSample)) : Prop :=
  List.Forall₂ (fun new p => ∃ uuid, EigenRow.Holds new uuid p.1 p.2) news samples

/-- A run that stops at the `INSERT` with number `k`, with `k` rows more. -/
def FailsAt (st : WriteState) (result : Option (ℤ × Store)) (k : ℕ) : Prop :=
  (∀ j < k, st.store.outcome j = true) ∧ st.store.outcome k = false ∧
    ∃ c' news, result = some (-2, c') ∧ c'.db.rows = st.store.db.rows ++ news ∧ news.length = k

section Cases

variable {uuidOf : ℤ → String}

variable (uuidOf) in
theorem insertSample_holds (info : FeatureInfo) (s : FeatureSample) (st : WriteState) :
    ∃ new uuid, (insertSample uuidOf info s st).store.db.rows = st.store.db.rows ++ [new] ∧
      new.Holds uuid info s :=
  ⟨_, _, rfl, rfl, rfl, rfl, rfl, rfl, rfl, rfl, rfl⟩

/-- A failure after the next `INSERT`. -/
theorem FailsAt.succ {info : FeatureInfo} {s : FeatureSample} {st : WriteState}
    {result : Option (ℤ × Store)} {k : ℕ} (hok : st.store.outcome 0 = true)
    (h : FailsAt (insertSample uuidOf info s st) result k) : FailsAt st result (k + 1) := by
  obtain ⟨hbefore, hfail, c', news, hresult, hrows, hlength⟩ := h
  obtain ⟨new, uuid, hnew, -⟩ := insertSample_holds uuidOf info s st
  refine ⟨fun j hj => ?_, ?_, c', new :: news, hresult, ?_, by rw [List.length_cons, hlength]⟩
  · cases j with
    | zero => exact hok
    | succ j => simpa [insertSample] using hbefore j (by omega)
  · simpa [insertSample] using hfail
  · rw [hrows, hnew, List.append_assoc, List.singleton_append]

/-- The loop on the samples of a feature: an `INSERT` fails, or the loop goes on behind them with
a row more for each. -/
theorem writeSamples_cases {info : FeatureInfo} (next : WriteState → Option (ℤ × Store))
    {samples : List FeatureSample} (hne : samples ≠ []) (st : WriteState) :
    (∃ k < samples.length, FailsAt st (writeSamples uuidOf info next samples st) k) ∨
      (∀ j < samples.length, st.store.outcome j = true) ∧
        ∃ st' news, writeSamples uuidOf info next samples st = next st' ∧
          (∀ j, st'.store.outcome j = st.store.outcome (samples.length + j)) ∧
          st'.store.db.rows = st.store.db.rows ++ news ∧
          HoldAll news (samples.map fun s => (info, s)) := by
  -- by induction on the samples, for every state of the statements
  induction samples generalizing st with
  | nil => exact absurd rfl hne
  | cons s samples ih =>
    obtain ⟨new, uuid, hnew, hholds⟩ := insertSample_holds uuidOf info s st
    cases hok : st.store.outcome 0 with
    | false =>
      -- the `INSERT` fails: the loop ends here
      refine .inl ⟨0, by simp, fun j hj => absurd hj (Nat.not_lt_zero j), hok, st.store.advance, [],
        ?_, by simp, rfl⟩
      rw [writeSamples.eq_def]
      simp [Store.ok_eq_outcome, hok]
    | true =>
      have hnot : ¬ st.store.ok = false := by rw [Store.ok_eq_outcome, hok]; decide
      -- the last sample: the loop goes on behind it
      cases samples with
      | nil =>
        refine .inr ⟨fun j hj => ?_, insertSample uuidOf info s st, [new], ?_, fun j => ?_, hnew,
          .cons ⟨uuid, hholds⟩ .nil⟩
        · obtain rfl : j = 0 := by simpa using hj
          exact hok
        · rw [writeSamples.eq_def]
          simp only [if_neg hnot]
        · rw [List.length_singleton, Nat.add_comm 1 j]
          simp [insertSample]
      | cons s' samples =>
        -- its `INSERT` is executed, and the others follow
        have hunfold : writeSamples uuidOf info next (s :: s' :: samples) st =
            writeSamples uuidOf info next (s' :: samples) (insertSample uuidOf info s st) := by
          rw [writeSamples.eq_def]
          simp only [if_neg hnot]
        rw [hunfold]
        rcases ih (List.cons_ne_nil _ _) (insertSample uuidOf info s st) with
          ⟨k, hk, hfails⟩ | ⟨hall, st', news, hnext, houtcome, hrows, hnews⟩
        · -- one of the others fails, one place further on
          exact .inl ⟨k + 1, by simpa using hk, hfails.succ hok⟩
        · refine .inr ⟨fun j hj => ?_, st', new :: news, hnext, fun j => ?_, ?_,
            .cons ⟨uuid, hholds⟩ hnews⟩
          · cases j with
            | zero => exact hok
            | succ j => simpa [insertSample] using hall j (by simpa using hj)
          · rw [houtcome]
            simp only [insertSample, Store.outcome_step, List.length_cons]
            congr 1
            omega
          · rw [hrows, hnew, List.append_assoc, List.singleton_append]

/-- A failure behind the samples of the first feature. -/
theorem FailsAt.append {st st' : WriteState} {result : Option (ℤ × Store)} {n k : ℕ}
    {news : List EigenRow} (hall : ∀ j < n, st.store.outcome j = true)
    (houtcome : ∀ j, st'.store.outcome j = st.store.outcome (n + j))
    (hrows : st'.store.db.rows = st.store.db.rows ++ news) (hlength : news.length = n)
    (h : FailsAt st' result k) : FailsAt st result (n + k) := by
  obtain ⟨hbefore, hfail, c', news', hresult, hrows', hlength'⟩ := h
  refine ⟨fun j hj => ?_, by rw [← houtcome, hfail], c', news ++ news', hresult, ?_, ?_⟩
  · by_cases hjn : j < n
    · exact hall j hjn
    · have hlater := hbefore (j - n) (by omega)
      rwa [houtcome, Nat.add_sub_cancel' (by omega)] at hlater
  · rw [hrows', hrows, List.append_assoc]
  · rw [List.length_append, hlength, hlength']

variable (uuidOf) in
/-- **Write loop.** An `INSERT` fails and the rows before it stay, or a feature without samples is
a crash, or there is a row more for every sample. -/
theorem writeInfos_cases (infos : List FeatureInfo) (st : WriteState) :
    (∃ k < reachedSamples infos, FailsAt st (writeInfos uuidOf infos st) k) ∨
      (∀ j < reachedSamples infos, st.store.outcome j = true) ∧
        (writeInfos uuidOf infos st = none ∨
          ∃ c' news, writeInfos uuidOf infos st = some (0, c') ∧
            c'.db.rows = st.store.db.rows ++ news ∧ HoldAll news (samplesOf infos)) := by
  induction infos generalizing st with
  | nil =>
    exact .inr ⟨fun j hj => absurd hj (Nat.not_lt_zero j), .inr ⟨st.store, [], rfl, by simp, .nil⟩⟩
  | cons info infos ih =>
    rw [writeInfos, reachedSamples]
    by_cases hempty : info.samples = []
    · -- a feature without samples: nothing is written, and the loop crashes
      rw [if_pos hempty, hempty]
      exact .inr ⟨fun j hj => absurd hj (Nat.not_lt_zero j), .inl rfl⟩
    · rw [if_neg hempty]
      rcases writeSamples_cases (writeInfos uuidOf infos) hempty st with
        ⟨k, hk, hfails⟩ | ⟨hall, st', news, hnext, houtcome, hrows, hnews⟩
      · -- an `INSERT` of its samples fails
        exact .inl ⟨k, by omega, hfails⟩
      · have hlength : news.length = info.samples.length := by simpa using hnews.length_eq
        rw [hnext]
        -- the rows of this feature are there, and the rest is written behind them
        rcases ih st' with ⟨k, hk, hfails⟩ | ⟨hall', hrest⟩
        · exact .inl ⟨_, Nat.add_lt_add_left hk _, hfails.append hall houtcome hrows hlength⟩
        · refine .inr ⟨fun j hj => ?_, hrest.imp_right ?_⟩
          · -- an `INSERT` is one of this feature or one of the rest
            by_cases hjn : j < info.samples.length
            · exact hall j hjn
            · have hlater := hall' (j - info.samples.length) (by omega)
              rwa [houtcome, Nat.add_sub_cancel' (by omega)] at hlater
          · rintro ⟨c', news', hresult, hrows', hnews'⟩
            -- the rows of the rest come after those of this feature
            refine ⟨c', news ++ news', hresult, by rw [hrows', hrows, List.append_assoc], ?_⟩
            rw [samplesOf, List.flatMap_cons]
            exact List.rel_append hnews hnews'

end Cases

/-! ### All or nothing -/

/-- A write that returns another value than `0` leaves the rows alone, and one that returns `0`
adds a row for every sample. -/
def SetsAtomically (uuidOf : ℤ → String) (c : Store) (infos : List FeatureInfo) : Prop :=
  ∀ ret c', bioStoSetFeatureInfo uuidOf c infos = some (ret, c') →
    (ret ≠ 0 → c'.db.rows = c.db.rows) ∧
      (ret = 0 → ∃ news, c'.db.rows = c.db.rows ++ news ∧ HoldAll news (samplesOf infos))

/-- A write is all or nothing exactly if the statement cannot be prepared, or the first `INSERT`
fails, or all do succeed that the loop comes to. -/
theorem setsAtomically_iff (uuidOf : ℤ → String) (c : Store) (infos : List FeatureInfo) :
    SetsAtomically uuidOf c infos ↔ c.outcome 0 = false ∨ c.outcome 1 = false ∨
      ∀ k < reachedSamples infos, c.outcome (k + 1) = true := by
  -- the statement is prepared first, and the loop starts behind it
  have hrun : bioStoSetFeatureInfo uuidOf c infos = if c.outcome 0 = false then some (-1, c.advance)
      else writeInfos uuidOf infos { oldUid := -1, uuid := "", store := c.advance } := by
    rw [bioStoSetFeatureInfo, Store.ok_eq_outcome]
  -- it cannot be prepared: nothing is written
  cases hprepare : c.outcome 0 with
  | false =>
    rw [hprepare, if_pos rfl] at hrun
    refine iff_of_true (fun ret c' h => ?_) (.inl rfl)
    rw [hrun] at h
    obtain ⟨rfl, rfl⟩ := Prod.mk.inj (Option.some.inj h)
    exact ⟨fun _ => rfl, fun h => absurd h (by decide)⟩
  | true =>
    rw [hprepare, if_neg (by decide)] at hrun
    rcases writeInfos_cases uuidOf infos
        { oldUid := -1, uuid := "", store := c.advance } with
      ⟨k, hk, hbefore, hfail, c', news, hresult, hrows, hlength⟩ | ⟨hall, hend⟩
    · simp only [Store.outcome_advance, Store.advance_db] at hbefore hfail hrows
      rw [hresult] at hrun
      cases k with
      | zero =>
        -- the first `INSERT`
        refine iff_of_true (fun ret c'' h => ?_) (.inr (.inl hfail))
        rw [hrun] at h
        obtain ⟨rfl, rfl⟩ := Prod.mk.inj (Option.some.inj h)
        rw [hrows, List.eq_nil_of_length_eq_zero hlength, List.append_nil]
        exact ⟨fun _ => rfl, fun h => absurd h (by decide)⟩
      | succ k =>
        -- a later one: the rows before stay
        refine iff_of_false (fun h => ?_) ?_
        · have hsame := (h _ _ hrun).1 (by decide)
          rw [hrows, eq_comm, List.self_eq_append_right] at hsame
          rw [hsame] at hlength
          exact absurd hlength (Nat.succ_ne_zero k).symm
        · rintro (h | h | h)
          · cases h
          · rw [hbefore 0 (Nat.succ_pos k)] at h
            cases h
          · rw [h (k + 1) hk] at hfail
            cases hfail
    · -- every `INSERT` is executed: the write crashes, or it writes the whole list
      simp only [Store.outcome_advance, Store.advance_db] at hall hend
      refine iff_of_true (fun ret c' h => ?_) (.inr (.inr hall))
      rw [hrun] at h
      rcases hend with hcrash | ⟨c'', news, hresult, hrows, hnews⟩
      · rw [hcrash] at h
        cases h
      · rw [hresult] at h
        obtain ⟨rfl, rfl⟩ := Prod.mk.inj (Option.some.inj h)
        exact ⟨fun h => absurd rfl h, fun _ => ⟨news, hrows, hnews⟩⟩

/-- Two samples, the second of which cannot be inserted: the row of the first stays. -/
theorem not_setsAtomically_second : ¬ SetsAtomically (fun _ => "u")
    { db := EigenInfo.empty, outcomes := [true, true, false] }
    [⟨7, 0, "uru4000", 0, "a", [⟨0, 1, [80]⟩, ⟨0, 1, [81]⟩]⟩] := by
  intro h
  have hrows := (h (-2) _ rfl).1 (by decide)
  exact absurd hrows (by decide)

end BiometricAuth
