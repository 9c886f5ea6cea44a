import BiometricAuth.Driver.Frame
import BiometricAuth.Driver.SearchCallback

/-!
# The range of a search

`community_ops_search` asks libfprint again and again, each time for the features from
a cursor on; a match moves the cursor to the feature it was found in, and every
round moves it by one. The cursor starts at `0`, and `idx_start` is not looked at.

`searchStep` is what the rounds and the match reports do to the data of a search, and
`searchSteps` reads them off the calls of a run; `bioOpsSearch_steps` says that the data
of the driver are those after its steps. The entries found lie in the requested range
exactly as long as no match is equal to a listed sample below `idx_start`
(`always_inRange_iff`).

Main result: `bioOpsSearch_inRange`.
-/

namespace BiometricAuth

open Process World

/-! ### The steps of a search -/

/-- What happens to the data of a search. -/
inductive SearchStep (π : Type)
  /-- A round begins. -/
  | round
  /-- `on_match_cb_search` is called. -/
  | report (report : MatchReport π)

/-- The step is the beginning of a round. -/
def SearchStep.isRound {π : Type} : SearchStep π → Bool
  | .round => true
  | .report _ => false

section Steps

variable {π : Type}

/-- One step, with the device and the database of `w`; `none` where it crashes. -/
def searchStep (fp : Libfprint π) (w : World π) (data : SearchData) :
    SearchStep π → Option SearchData
  | .round => (cInt (data.index + 1)).map fun index => { data with index := index }
  | .report .error => some data
  | .report .noMatch =>
    some { data with found := if data.foundHead = [] then none else some 1 }
  | .report (.matched print) => do
    let infos ← listFeatureInfo w.uuidOf w.store.db
      (w.dev.query data.uid data.index data.idxEnd)
    infos.foldlM
      (fun data info => searchSamples fp w.priv.aesKey print info info.samples data) data

/-- The data before the first round. -/
def SearchData.start (uid idxStart idxEnd : ℤ) : SearchData :=
  { uid, idxStart, idxEnd, index := -1, foundHead := [], found := some 0 }

/-- The step a call is, if it is one of a search. -/
def FpCall.searchStep? : FpCall π → Option (SearchStep π)
  | .deviceIdentify _ => some .round
  | .onMatchCbSearch report => some (.report report)
  | _ => none

/-- The steps among the calls of a run. -/
def searchSteps (calls : List (FpCall π)) : List (SearchStep π) :=
  calls.filterMap FpCall.searchStep?

@[simp] theorem searchSteps_nil : searchSteps ([] : List (FpCall π)) = [] := rfl

@[simp] theorem searchSteps_append (calls calls' : List (FpCall π)) :
    searchSteps (calls ++ calls') = searchSteps calls ++ searchSteps calls' :=
  List.filterMap_append

variable {fp : Libfprint π} {w w' w₀ : World π}

/-- Only the device and the database matter. -/
theorem searchStep_config (h : SameConfig w₀ w) (hstore : w.store = w₀.store) :
    searchStep fp w = searchStep fp w₀ := by
  have hquery : w.dev.query = w₀.dev.query := by
    funext uid idxStart idxEnd
    simp only [BioDev.query, h.biotype, h.deviceName]
  funext data step
  rcases step with _ | _ | _ | print
  · rfl
  · rfl
  · rfl
  · simp only [searchStep, h.uuidOf, hstore, hquery, h.aesKey]

variable (fp) in
/-- The callback is a step. -/
theorem onMatchCbSearch_step (w : World π) (report : MatchReport π) :
    (onMatchCbSearch fp w report).map World.searchData =
      searchStep fp w w.searchData (.report report) := by
  cases report with
  | error | noMatch => rfl
  | matched print =>
    simp only [onMatchCbSearch, searchStep, Option.bind_eq_bind, Option.map_bind]
    refine Option.bind_congr fun infos _ => ?_
    rw [Function.comp_apply, Option.map_bind]
    exact Option.bind_fun_some _

end Steps

/-! ### The data of the driver -/

section SearchPhase

variable {π : Type} {fp : Libfprint π} {w w' w₀ : World π} {data₀ : SearchData}
  {next : List (SearchStep π)} {es es' : List (List (Event π))}

/-- The search since `w₀`, where it began with `data₀`: the data are those after the steps so far
and those in `next`. -/
structure SearchPhase (fp : Libfprint π) (w₀ : World π) (data₀ : SearchData)
    (next : List (SearchStep π)) (w : World π) : Prop where
  config : SameConfig w₀ w
  store : w.store = w₀.store
  steps : ∃ calls, w.trace = w₀.trace ++ calls ∧
    Machine.run (searchStep fp w₀) data₀ (searchSteps calls ++ next) = some w.searchData

/-- In a round. -/
structure SearchRound (fp : Libfprint π) (w₀ : World π) (data₀ : SearchData) (w : World π) :
    Prop extends SearchPhase fp w₀ data₀ [] w where
  pending : w.pending = some .deviceSearch ∨ w.pending = none

/-- What the data of a search do not depend on. -/
theorem SearchPhase.congr (h : SearchPhase fp w₀ data₀ next w) (hconfig : SameConfig w w')
    (hstore : w'.store = w.store) (htrace : w'.trace = w.trace)
    (hdata : w'.searchData = w.searchData) : SearchPhase fp w₀ data₀ next w' := by
  obtain ⟨calls, hcalls, hrun⟩ := h.steps
  exact ⟨h.config.trans hconfig, hstore.trans h.store, calls, htrace.trans hcalls, hdata ▸ hrun⟩

/-- A match report. -/
theorem SearchRound.onMatchCbSearch (h : SearchRound fp w₀ data₀ w) {report : MatchReport π}
    (he : onMatchCbSearch fp w report = some w') : SearchRound fp w₀ data₀ w' := by
  obtain ⟨calls, hcalls, hrun⟩ := h.steps
  have hframe := onMatchCbSearch_frame he
  have hstep := onMatchCbSearch_step fp w report
  rw [he, Option.map_some] at hstep
  -- the search is still pending, or has just ended
  have hpending : w'.pending = some .deviceSearch ∨ w'.pending = none := by
    rcases hframe.pending with hp | hp
    · exact hp ▸ h.pending
    · exact .inr hp
  -- the table has not been touched
  have hstore : w'.store = w₀.store :=
    (hframe.store (by rcases h.pending with hp | hp <;> simp [hp])).trans h.store
  have htrace : w'.trace = w.trace ++ [.onMatchCbSearch report] := by
    obtain ⟨data, dev, ctrlFlag, rfl, -⟩ := exists_of_onMatchCbSearch he
    rfl
  refine ⟨⟨h.config.trans hframe.config, hstore, calls ++ [.onMatchCbSearch report], ?_, ?_⟩,
    hpending⟩
  · rw [htrace, hcalls, List.append_assoc]
  · -- the report is one step more of the search
    rw [List.append_nil] at hrun ⊢
    rw [searchSteps_append, Machine.run_append, hrun, Option.bind_some,
      ← searchStep_config h.config h.store]
    simpa [searchSteps, FpCall.searchStep?] using hstep.symm

/-- Every event of a round. -/
theorem SearchRound.deliver (h : SearchRound fp w₀ data₀ w) {e : Event π}
    (he : w.deliver fp e = some w') : SearchRound fp w₀ data₀ w' := by
  have hframe := deliver_frame he
  rcases deliver_cases he with rfl | rfl | ⟨async, hasync, hcallback⟩
  · -- an event that is nobody's
    exact h
  · -- a stop: no step of the search
    refine ⟨h.toSearchPhase.congr hframe.config (by simp) (by simp) ?_, by simpa using h.pending⟩
    unfold communityOpsStopByUser
    split <;> rfl
  · -- only a callback of the search is pending here
    obtain rfl : async = .deviceSearch := by
      rcases h.pending with hp | hp
      · exact Option.some.inj (hasync.symm.trans hp)
      · rw [hp] at hasync
        cases hasync
    cases e with
    | matchReport report =>
      simp only [World.deliver, hasync] at he
      exact h.onMatchCbSearch he
    | deviceIdentified =>
      simp only [World.deliver, hasync, or_true, if_true, Option.some.injEq] at he
      -- the identification ends, which is no step either
      subst he
      exact ⟨h.toSearchPhase.congr ⟨rfl, rfl, rfl, rfl⟩ rfl rfl rfl, .inr rfl⟩
    | _ => simp [callbackOf] at hcallback

/-- The loop of a round. -/
theorem SearchRound.poll (h : SearchRound fp w₀ data₀ w) {exit : Exit}
    (hpoll : (opPoller fp).poll w es = .ret exit w' es') : SearchRound fp w₀ data₀ w' := by
  have hkeep : ∀ {w w' : World π}, SearchRound fp w₀ data₀ w → SameConfig w w' →
      w'.store = w.store → w'.trace = w.trace → w'.searchData = w.searchData →
      w'.pending = w.pending → SearchRound fp w₀ data₀ w' :=
    fun h hconfig hstore htrace hdata hpending =>
      ⟨h.toSearchPhase.congr hconfig hstore htrace hdata, hpending ▸ h.pending⟩
  have hexit := Poller.poll_invariant (P := SearchRound fp w₀ data₀)
    (Q := SearchRound fp w₀ data₀) (fun _ _ _ hs he => hs.deliver he)
    (fun s hs _ => hkeep hs ⟨rfl, rfl, rfl, rfl⟩ rfl rfl rfl rfl)
    (fun s hs _ => hkeep hs ⟨rfl, rfl, rfl, rfl⟩ rfl rfl rfl rfl)
    (fun _ _ _ hs he => hs.deliver he) h hpoll
  have hround := hexit.1
  rwa [ite_self] at hround

/-- A round of the search. -/
theorem searchRound_phase {uid idxEnd : ℤ} {exit : Exit}
    (h : SearchPhase fp w₀ data₀ [.round] w)
    (hround : searchRound fp uid idxEnd w es = .ret exit w' es') :
    SearchPhase fp w₀ data₀ [] w' := by
  simp only [searchRound, Proc.modify_bind, Proc.get_bind, Proc.bind_eq_ret,
    Proc.ofOption_eq_ret] at hround
  obtain ⟨prints, w₁, es₁, ⟨-, rfl, rfl⟩, hround⟩ := hround
  obtain ⟨w₂, hpoll, rfl⟩ := awaitCompletion_eq_ret.mp hround
  obtain ⟨calls, hcalls, hrun⟩ := h.steps
  have hbegin : SearchRound fp w₀ data₀
      (w.startAsync.beginAsync .deviceSearch (.deviceIdentify prints)) := by
    refine ⟨⟨h.config.trans ⟨rfl, rfl, rfl, rfl⟩, h.store,
      calls ++ [.deviceIdentify prints], ?_, ?_⟩, .inl rfl⟩
    · change w.trace ++ _ = _
      rw [hcalls, List.append_assoc]
    · rw [searchSteps_append, List.append_nil]
      exact hrun
  have hend := (hbegin.poll hpoll).toSearchPhase
  split
  · exact hend.congr ⟨rfl, rfl, rfl, rfl⟩ rfl rfl rfl
  · exact hend

/-- **Run lemma.** By induction on the rounds: when the loop is left by `done`, a round more has
begun than libfprint was asked for. -/
theorem searchRounds_phase {uid idxEnd : ℤ} {exit : Exit} (rounds : ℕ)
    (h : SearchPhase fp w₀ data₀ [.round] w)
    (hrounds : searchRounds fp uid idxEnd rounds w es = .ret exit w' es') :
    if exit = .done then SearchPhase fp w₀ data₀ [.round] w'
      else SearchPhase fp w₀ data₀ [] w' := by
  induction rounds generalizing w es with
  | zero => cases hrounds
  | succ rounds ih =>
    rw [searchRounds, Proc.get_bind] at hrounds
    split at hrounds
    · -- the search is over
      obtain ⟨rfl, rfl, -⟩ := Proc.pure_eq_ret.mp hrounds
      exact h
    · obtain ⟨exit₁, w₁, es₁, hround, hrest⟩ := Proc.bind_eq_ret.mp hrounds
      -- one round
      have h₁ := searchRound_phase h hround
      split at hrest
      · -- the round was done: the cursor moves on, and another one begins
        rw [Proc.get_bind] at hrest
        obtain ⟨index, w₂, es₂, hnext, hrounds⟩ := Proc.bind_eq_ret.mp hrest
        obtain ⟨hindex, rfl, rfl⟩ := Proc.ofOption_eq_ret.mp hnext
        rw [Proc.modify_bind] at hrounds
        refine ih ?_ hrounds
        obtain ⟨calls, hcalls, hrun⟩ := h₁.steps
        refine ⟨h₁.config.trans ⟨rfl, rfl, rfl, rfl⟩, h₁.store, calls, hcalls, ?_⟩
        rw [List.append_nil] at hrun
        rw [Machine.run_append, hrun]
        simp [searchStep, hindex]
      next hne =>
        -- it was stopped, or timed out
        obtain ⟨rfl, rfl, -⟩ := Proc.pure_eq_ret.mp hrest
        rw [if_neg hne]
        exact h₁

end SearchPhase

/-! ### What is found -/

/-- The entry for a sample in the list of a search. -/
def foundEntry (entry : FeatureInfo × FeatureSample) : FeatureInfo :=
  { entry.1 with samples := [⟨0, entry.2.no, entry.2.data⟩] }

/-- `found` points into the list. -/
def SearchData.Inside (data : SearchData) : Prop :=
  ∀ node, data.found = some node → node ≤ data.foundHead.length

/-- Entries are appended behind `found`, one after the other. -/
theorem appendAll_spec {entries : List (FeatureInfo × FeatureSample)} {data data' : SearchData}
    (hinside : data.Inside) (h : appendAll entries data = some data') :
    data'.Inside ∧ data'.uid = data.uid ∧ data'.idxStart = data.idxStart ∧
      data'.idxEnd = data.idxEnd ∧
      (entries = [] ∧ data' = data ∨
        (∃ entry ∈ entries, data'.index = entry.1.index) ∧ ∃ node, data.found = some node ∧
          data'.foundHead = data.foundHead.take node ++ entries.map foundEntry) := by
  -- by induction on the entries, each of which is put behind `found`
  induction entries generalizing data with
  | nil =>
    obtain rfl := Option.some.inj h
    exact ⟨hinside, rfl, rfl, rfl, .inl ⟨rfl, rfl⟩⟩
  | cons entry entries ih =>
    rw [appendAll_cons] at h
    obtain ⟨data₁, happend, h⟩ := Option.bind_eq_some_iff.mp h
    obtain ⟨node, hnode, rfl⟩ := Option.map_eq_some_iff.mp happend
    have hlength : (data.foundHead.take node).length = node :=
      List.length_take_of_le (hinside node hnode)
    -- `found` stays inside of the list
    have hinside₁ : SearchData.Inside
        { data with
          foundHead := data.foundHead.take node ++ [foundEntry entry]
          found := some (node + 1)
          index := entry.1.index } := by
      intro node' hnode'
      obtain rfl := Option.some.inj hnode'
      simp [hlength]
    obtain ⟨hinside', huid, hstart, hend, hfound⟩ := ih hinside₁ h
    refine ⟨hinside', huid, hstart, hend, .inr ?_⟩
    -- it is the last entry, or the later ones follow it
    rcases hfound with ⟨rfl, rfl⟩ | ⟨⟨last, hlast, hindex⟩, node', hnode', hfound⟩
    · exact ⟨⟨entry, by simp, rfl⟩, node, hnode, rfl⟩
    · refine ⟨⟨last, List.mem_cons_of_mem _ hlast, hindex⟩, node, hnode, ?_⟩
      obtain rfl := Option.some.inj hnode'
      rw [hfound, List.map_cons]
      have htake : (data.foundHead.take node ++ [foundEntry entry]).take (node + 1) =
          data.foundHead.take node ++ [foundEntry entry] := by
        rw [List.take_of_length_le]
        simp [hlength]
      simpa using congrArg (· ++ entries.map foundEntry) htake

/-! ### The range -/

/-- A feature in the requested range. -/
def FeatureInfo.InRange (uid idxStart idxEnd : ℤ) (info : FeatureInfo) : Prop :=
  idxStart ≤ info.index ∧ (idxEnd = -1 ∨ info.index ≤ idxEnd) ∧ (uid = -1 ∨ info.uid = uid)

/-- Every feature found so far is in the requested range. -/
def SearchData.FoundInRange (data : SearchData) : Prop :=
  ∀ info ∈ data.foundHead, info.InRange data.uid data.idxStart data.idxEnd

section Range

variable {π : Type}

/-- A match is equal to no sample of a feature that the callback lists with an index below
`idx_start`. -/
def AboveStart (fp : Libfprint π) (w : World π) (data : SearchData) : SearchStep π → Prop
  | .report (.matched print) =>
    ∀ infos, bioStoGetFeatureInfo w.uuidOf w.store.db
        (w.dev.query data.uid data.index data.idxEnd) = some infos →
      ∀ info ∈ infos, info.index < data.idxStart →
        ∀ sample ∈ info.samples, sampleEqual fp w.priv.aesKey print sample ≠ some true
  | _ => True

variable {fp : Libfprint π} {w w' : World π} {data data' : SearchData} {step : SearchStep π}
  {es es' : List (List (Event π))} {uid idxStart idxEnd : ℤ}

theorem mem_equalSamples {key : Bytes} {print : π} {infos : List FeatureInfo}
    {entry : FeatureInfo × FeatureSample} : entry ∈ equalSamples fp key print infos ↔
      entry.1 ∈ infos ∧ entry.2 ∈ entry.1.samples ∧
        sampleEqual fp key print entry.2 = some true := by
  obtain ⟨info, sample⟩ := entry
  simp only [equalSamples, samplesEqual, List.mem_flatMap, List.mem_map, List.mem_filter,
    Prod.mk.injEq, decide_eq_true_eq]
  constructor
  · rintro ⟨info', hinfo, sample', hsample, rfl, rfl⟩
    exact ⟨hinfo, hsample⟩
  · rintro ⟨hinfo, hsample⟩
    exact ⟨info, hinfo, sample, hsample, rfl, rfl⟩

/-- **Step lemma.** What was asked for stays the same, and what is found stays in the range exactly
if nothing below `idx_start` is matched. -/
theorem searchStep_range (hinside : data.Inside) (h : searchStep fp w data step = some data') :
    data'.Inside ∧ data'.uid = data.uid ∧ data'.idxStart = data.idxStart ∧
      data'.idxEnd = data.idxEnd ∧
      (data.FoundInRange → (data'.FoundInRange ↔ AboveStart fp w data step)) := by
  rcases step with _ | _ | _ | print
  · -- a round begins behind the index
    obtain ⟨index, -, rfl⟩ := Option.map_eq_some_iff.mp h
    exact ⟨hinside, rfl, rfl, rfl, fun hrange => iff_of_true hrange trivial⟩
  · -- an error changes nothing
    obtain rfl := Option.some.inj h
    exact ⟨hinside, rfl, rfl, rfl, fun hrange => iff_of_true hrange trivial⟩
  · -- the search is over: `found` is at the first entry, if there is one
    obtain rfl := Option.some.inj h
    refine ⟨fun node hnode => ?_, rfl, rfl, rfl, fun hrange => iff_of_true hrange trivial⟩
    change (if data.foundHead = [] then none else some 1) = some node at hnode
    split at hnode
    · cases hnode
    next hne =>
      obtain rfl := Option.some.inj hnode
      exact List.length_pos_iff.mpr hne
  · -- a match: the equal samples are appended
    simp only [searchStep, Option.bind_eq_bind, Option.bind_eq_some_iff] at h
    obtain ⟨infos, hlist, hfold⟩ := h
    have hinfos := (listFeatureInfo_eq_some_iff.mp hlist).1
    obtain ⟨hinside', huid, hstart, hend, hfound⟩ :=
      appendAll_spec hinside (searchInfos_eq_appendAll hfold)
    refine ⟨hinside', huid, hstart, hend, fun hrange => ?_⟩
    -- a listed feature is in the range but for `idx_start`
    have hlisted : ∀ info ∈ infos, info.InRange data.uid data.idxStart data.idxEnd ↔
        data.idxStart ≤ info.index := by
      intro info hinfo
      obtain ⟨r, -, hselects, -, hheader⟩ := exists_row_of_mem_features hinfos hinfo
      obtain ⟨-, hquid, -, -, hqend⟩ := FeatureQuery.selects_iff.mp hselects
      refine ⟨fun h => h.1, fun h => ⟨h, ?_, ?_⟩⟩
      · refine or_iff_not_imp_left.mpr fun hne => ?_
        rw [hheader]
        exact (FeatureQuery.columns_eigenIndex hne).trans_le (hqend.resolve_left hne)
      · refine or_iff_not_imp_left.mpr fun hne => ?_
        rw [hheader]
        exact (FeatureQuery.columns_uid hne).trans (hquid.resolve_left hne)
    -- so nothing below `idx_start` is matched exactly if the entries are in the range
    have habove : AboveStart fp w data (.report (.matched print)) ↔
        ∀ entry ∈ equalSamples fp w.priv.aesKey print infos,
          (foundEntry entry).InRange data.uid data.idxStart data.idxEnd := by
      constructor
      · intro habove entry hentry
        obtain ⟨hinfo, hsample, hequal⟩ := mem_equalSamples.mp hentry
        refine (hlisted entry.1 hinfo).mpr (not_lt.mp fun hlt => ?_)
        exact habove infos hinfos entry.1 hinfo hlt entry.2 hsample hequal
      · intro hentries infos' hinfos' info hinfo hlt sample hsample hequal
        obtain rfl := Option.some.inj (hinfos.symm.trans hinfos')
        have hentry := hentries (info, sample) (mem_equalSamples.mpr ⟨hinfo, hsample, hequal⟩)
        exact absurd hentry.1 (not_le.mpr hlt)
    rw [habove, SearchData.FoundInRange, huid, hstart, hend]
    -- no sample is equal: nothing is added
    rcases hfound with ⟨hnone, rfl⟩ | ⟨-, node, -, hfound⟩
    · rw [hnone]
      exact iff_of_true hrange (by simp)
    · rw [hfound]
      -- what was found is there still, and the entries are what is new
      constructor
      · intro h entry hentry
        exact h _ (List.mem_append_right _ (List.mem_map_of_mem hentry))
      · intro h info hinfo
        rcases List.mem_append.mp hinfo with hinfo | hinfo
        · exact hrange info (List.mem_of_mem_take hinfo)
        · obtain ⟨entry, hentry, rfl⟩ := List.mem_map.mp hinfo
          exact h entry hentry

/-- **Step lemma.** A match moves the cursor to a listed feature that it is equal to a sample of, if
there is one, and a round by one. -/
theorem searchStep_index (hinside : data.Inside) (h : searchStep fp w data step = some data') :
    match step with
    | .round => data'.index = data.index + 1
    | .report (.matched print) => ∃ infos, listFeatureInfo w.uuidOf w.store.db
        (w.dev.query data.uid data.index data.idxEnd) = some infos ∧
          (equalSamples fp w.priv.aesKey print infos = [] ∧ data' = data ∨
            ∃ entry ∈ equalSamples fp w.priv.aesKey print infos, data'.index = entry.1.index)
    | _ => data'.index = data.index := by
  rcases step with _ | _ | _ | print
  · obtain ⟨index, hindex, rfl⟩ := Option.map_eq_some_iff.mp h
    exact (eq_of_cInt hindex).1
  · obtain rfl := Option.some.inj h
    rfl
  · obtain rfl := Option.some.inj h
    rfl
  · simp only [searchStep, Option.bind_eq_bind, Option.bind_eq_some_iff] at h
    obtain ⟨infos, hinfos, hfold⟩ := h
    obtain ⟨-, -, -, -, hfound⟩ := appendAll_spec hinside (searchInfos_eq_appendAll hfold)
    exact ⟨infos, hinfos, hfound.imp_right And.left⟩

/-- The query reads the index of every row that it selects as it is stored. Without an upper bound
an index from `2^31` on is read as another one. -/
def ReadsIndex (db : EigenInfo) (q : FeatureQuery) : Prop :=
  ∀ r ∈ db.rows, q.selects r = true → (q.columns r).eigenIndex = r.eigenIndex

/-- A listed feature lies behind the cursor. -/
theorem le_index_of_listed {q : FeatureQuery} {infos : List FeatureInfo} {info : FeatureInfo}
    (hread : ReadsIndex w.store.db q)
    (hinfos : bioStoGetFeatureInfo w.uuidOf w.store.db q = some infos) (hinfo : info ∈ infos) :
    q.indexStart ≤ info.index := by
  obtain ⟨r, hr, hselects, -, hheader⟩ := exists_row_of_mem_features hinfos hinfo
  have hindex : info.index = r.eigenIndex := by
    rw [hheader]
    exact hread r hr hselects
  rw [hindex]
  exact (FeatureQuery.selects_iff.mp hselects).1

/-- A later cursor selects less. -/
theorem ReadsIndex.of_le {cursor : ℤ} (h : ReadsIndex w.store.db (w.dev.query uid idxStart idxEnd))
    (hle : idxStart ≤ cursor) : ReadsIndex w.store.db (w.dev.query uid cursor idxEnd) := by
  intro r hr hselects
  obtain ⟨hcursor, hrest⟩ := FeatureQuery.selects_iff.mp hselects
  exact h r hr (FeatureQuery.selects_iff.mpr ⟨hle.trans hcursor, hrest⟩)

/-- The cursor never moves back. -/
theorem index_le_of_searchStep
    (hread : ReadsIndex w.store.db (w.dev.query data.uid data.index data.idxEnd))
    (hinside : data.Inside) (h : searchStep fp w data step = some data') :
    data.index ≤ data'.index := by
  have hindex := searchStep_index hinside h
  rcases step with _ | _ | _ | print
  · change data'.index = data.index + 1 at hindex
    omega
  · exact hindex.ge
  · exact hindex.ge
  · obtain ⟨infos, hinfos, ⟨-, rfl⟩ | ⟨entry, hentry, hindex⟩⟩ := hindex
    · exact le_refl _
    · rw [hindex]
      exact le_index_of_listed hread (listFeatureInfo_eq_some_iff.mp hinfos).1
        (mem_equalSamples.mp hentry).1

/-- Once the cursor has come to `idx_start` nothing below is listed any more, where the query reads
its indices as they are stored. -/
theorem along_aboveStart
    (hread : ReadsIndex w.store.db (w.dev.query data.uid data.index data.idxEnd))
    (hstart : data.idxStart ≤ data.index) (hinside : data.Inside) (steps : List (SearchStep π)) :
    Machine.Along (searchStep fp w) (AboveStart fp w) data steps := by
  induction steps generalizing data with
  | nil => trivial
  | cons step steps ih =>
    refine ⟨?_, fun data' h => ?_⟩
    · rcases step with _ | _ | _ | print
      · trivial
      · trivial
      · trivial
      · intro infos hinfos info hinfo hlt
        have hcursor : data.index ≤ info.index := le_index_of_listed hread hinfos hinfo
        omega
    · -- the next cursor is no smaller, so its query selects no more
      obtain ⟨hinside', huid', hstart', hend', -⟩ := searchStep_range hinside h
      have hle := index_le_of_searchStep hread hinside h
      refine ih ?_ ?_ hinside'
      · rw [huid', hend']
        exact hread.of_le hle
      · rw [hstart']
        exact hstart.trans hle

/-- Throughout the steps of a search nothing outside the range is found exactly if no match is
equal to a listed sample below `idx_start`; a call that crashes finds nothing. -/
theorem always_inRange_iff (fp : Libfprint π) (w : World π) (uid idxStart idxEnd : ℤ)
    (steps : List (SearchStep π)) :
    Machine.Always (searchStep fp w) SearchData.FoundInRange (.start uid idxStart idxEnd) steps ↔
      Machine.Along (searchStep fp w)
        (fun data step => searchStep fp w data step = none ∨ AboveStart fp w data step)
        (.start uid idxStart idxEnd) steps := by
  refine Machine.always_iff_along_of_invariant (I := SearchData.Inside)
    (fun _ _ hnone => .inl hnone) (fun _ _ _ hinside h => (searchStep_range hinside h).1)
    (fun data step data' hinside hrange h => ?_) ?_ ?_ steps
  · rw [(searchStep_range hinside h).2.2.2.2 hrange, h]
    simp
  · intro node hnode
    obtain rfl := Option.some.inj hnode
    exact Nat.zero_le _
  · simp [SearchData.FoundInRange, SearchData.start]

/-- The calls of a search, and what it returns: nothing, or what its steps have found. -/
theorem communityOpsSearch_steps {infos : List FeatureInfo} (henable : w.dev.enable = true)
    (h : communityOpsSearch fp uid idxStart idxEnd w es = .ret infos w' es') :
    SameConfig w w' ∧ ∃ calls, w'.trace = w.trace ++ calls ∧ (infos = [] ∨
      ∃ data, Machine.run (searchStep fp w) (.start uid idxStart idxEnd) (searchSteps calls) =
        some data ∧ infos = data.foundList) := by
  simp only [communityOpsSearch, Proc.modify_bind, Proc.get_bind, henable, Bool.true_eq_false,
    if_false, Proc.bind_eq_ret] at h
  obtain ⟨exit, w₁, es₁, hloop, h⟩ := h
  rw [searchLoop] at hloop
  -- the loop ends with the steps of all rounds
  have hphase : if exit = .done then SearchPhase fp w (.start uid idxStart idxEnd) [.round] w₁
      else SearchPhase fp w (.start uid idxStart idxEnd) [] w₁ := by
    refine searchRounds_phase _ ?_ hloop
    exact ⟨⟨rfl, rfl, rfl, rfl⟩, rfl, [], (List.append_nil _).symm, rfl⟩
  by_cases hdone : exit = .done
  · rw [if_pos hdone] at h hphase
    -- a round more has begun than libfprint was asked for
    obtain ⟨calls, hcalls, hrun⟩ := hphase.steps
    rw [Machine.run_append] at hrun
    obtain ⟨data, hdata, hround⟩ := Option.bind_eq_some_iff.mp hrun
    -- and beginning a round does not change the list
    have hlist : w₁.searchData.foundList = data.foundList := by
      obtain ⟨data', hstep, hnext⟩ := Option.bind_eq_some_iff.mp hround
      obtain ⟨index, -, rfl⟩ := Option.map_eq_some_iff.mp hstep
      rw [← Option.some.inj hnext]
      rfl
    rw [Proc.get_bind] at h
    -- what follows changes the device only
    have hend : SameConfig w₁ w' ∧ w'.trace = w₁.trace ∧ infos = w₁.searchData.foundList := by
      split at h <;> cases h <;> exact ⟨⟨rfl, rfl, rfl, rfl⟩, rfl, rfl⟩
    obtain ⟨hconfig, htrace, rfl⟩ := hend
    exact ⟨hphase.config.trans hconfig, calls, htrace.trans hcalls, .inr ⟨data, hdata, hlist⟩⟩
  · rw [if_neg hdone] at h hphase
    -- left by a stop or a timeout: nothing is returned
    obtain ⟨rfl, rfl, -⟩ := Proc.pure_eq_ret.mp h
    obtain ⟨calls, hcalls, -⟩ := hphase.steps
    exact ⟨hphase.config, calls, hcalls, .inl rfl⟩

/-- A search returns features of the requested range if, along its steps, no match is equal to a
listed sample below `idx_start`. -/
theorem bioOpsSearch_inRange {infos : List FeatureInfo} {calls : List (FpCall π)}
    (h : bioOpsSearch fp uid idxStart idxEnd w es = .ret infos w' es')
    (hcalls : w'.trace = w.trace ++ calls)
    (habove : Machine.Along (searchStep fp w) (AboveStart fp w) (.start uid idxStart idxEnd)
      (searchSteps calls)) :
    ∀ info ∈ infos, info.InRange uid idxStart idxEnd := by
  cases henable : w.dev.enable with
  | false =>
    simp only [bioOpsSearch, bioOps, Proc.get_bind, henable, if_true, Proc.modify_bind] at h
    cases h
    simp
  | true =>
    obtain ⟨r, w₁, es₁, w₂, es₂, hopen, hop, hclose⟩ := (bioOps_eq_ret henable).mp h
    obtain ⟨hconfig, hstore, htrace, -⟩ := communityOpsOpen_spec henable hopen
    have henable₁ := hconfig.enable.trans henable
    -- the device is open: the search, and close
    by_cases hr : r = 0
    · rw [if_pos hr] at hop
      obtain ⟨hconfig₂, calls₂, htrace₂, hreturned⟩ := communityOpsSearch_steps henable₁ hop
      obtain ⟨-, -, htrace', -⟩ := communityOpsClose_spec (hconfig₂.enable.trans henable₁) hclose
      rcases hreturned with rfl | ⟨data, hrun, rfl⟩
      · simp
      -- the steps of the search are those of the request, as open and close are no steps
      have hsteps : searchSteps calls = searchSteps calls₂ := by
        have hall : calls = [.deviceOpen] ++ calls₂ ++ [.deviceClose] := by
          rw [htrace', htrace₂, htrace] at hcalls
          simpa using hcalls.symm
        rw [hall, searchSteps_append, searchSteps_append]
        exact List.append_nil _
      rw [searchStep_config hconfig hstore, ← hsteps] at hrun
      have hstart : (SearchData.start uid idxStart idxEnd).Inside := by
        intro node hnode
        obtain rfl := Option.some.inj hnode
        exact Nat.zero_le _
      -- the invariant of the steps that match nothing below `idx_start`
      obtain ⟨-, rfl, rfl, rfl, hrange⟩ := habove.run_invariant
        (P := fun data => data.Inside ∧ data.uid = uid ∧ data.idxStart = idxStart ∧
          data.idxEnd = idxEnd ∧ data.FoundInRange)
        (fun data step data' hP hC hstep => by
          obtain ⟨hinside, huid, hstart, hend, hrange⟩ := hP
          obtain ⟨hinside', huid', hstart', hend', hrange'⟩ := searchStep_range hinside hstep
          exact ⟨hinside', huid'.trans huid, hstart'.trans hstart, hend'.trans hend,
            (hrange' hrange).mpr hC⟩)
        ⟨hstart, rfl, rfl, rfl, by simp [SearchData.FoundInRange, SearchData.start]⟩ hrun
      intro info hinfo
      refine hrange info ?_
      unfold SearchData.foundList at hinfo
      split at hinfo
      · cases hinfo
      · exact List.mem_of_mem_drop hinfo
    · rw [if_neg hr] at hop
      obtain ⟨rfl, -⟩ := hop
      simp

end Range

/-! ### A start that is not looked at -/

/-- What libfprint does in a search that comes to `reports`, one a round. -/
def searchSchedule (reports : List (MatchReport Bytes)) : List (List (Event Bytes)) :=
  [[.deviceOpened true]] ++ (reports.map fun report => [.matchReport report, .deviceIdentified]) ++
    [[.deviceClosed]]

/-- Every search returns features of the requested range. -/
def RespectsRange {π : Type} (fp : Libfprint π) (w : World π) (uid idxStart idxEnd : ℤ) : Prop :=
  ∀ es infos w' es', bioOpsSearch fp uid idxStart idxEnd w es = .ret infos w' es' →
    ∀ info ∈ infos, info.InRange uid idxStart idxEnd

/-- A search from index `5` on returns the feature with index `0`. -/
theorem not_respectsRange_start : ¬ RespectsRange bytesLibfprint enrolledWorld 1000 5 (-1) := by
  intro h
  have hrun : (bioOpsSearch bytesLibfprint 1000 5 (-1) enrolledWorld
      (searchSchedule [.matched [1, 2, 3], .noMatch])).result.map Prod.fst =
        some [⟨1000, 0, "uru4000", 0, "a", [⟨0, 3, [84, 76, 110, 78]⟩]⟩] := by decide +kernel
  obtain ⟨⟨infos, w'⟩, hresult, rfl⟩ := Option.map_eq_some_iff.mp hrun
  obtain ⟨es', hret⟩ := Outcome.result_eq_some.mp hresult
  have hrange := h _ _ _ _ hret _ (List.mem_singleton_self _)
  exact absurd hrange.1 (by decide)

/-- The same search from index `0` on. -/
theorem bioOpsSearch_inRange_zero :
    ∃ infos w' es', bioOpsSearch bytesLibfprint 1000 0 (-1) enrolledWorld
        (searchSchedule [.matched [1, 2, 3], .noMatch]) = .ret infos w' es' ∧
      infos.length = 1 ∧ ∀ info ∈ infos, info.InRange 1000 0 (-1) := by
  have hrun : (bioOpsSearch bytesLibfprint 1000 0 (-1) enrolledWorld
      (searchSchedule [.matched [1, 2, 3], .noMatch])).result.map
        (fun r => (r.1.length, (searchSteps r.2.trace).head?.map SearchStep.isRound)) =
      some (1, some true) := by decide +kernel
  obtain ⟨⟨infos, w'⟩, hresult, hrest⟩ := Option.map_eq_some_iff.mp hrun
  obtain ⟨es', hret⟩ := Outcome.result_eq_some.mp hresult
  obtain ⟨hlength, hround⟩ := Prod.mk.inj hrest
  refine ⟨infos, w', es', hret, hlength, ?_⟩
  refine bioOpsSearch_inRange hret (List.nil_append _).symm ?_
  -- the first step is a round, after which the cursor is at `0`
  obtain ⟨step, hhead, hstep⟩ := Option.map_eq_some_iff.mp hround
  obtain ⟨steps, hsteps⟩ := List.head?_eq_some_iff.mp hhead
  cases step with
  | report report => cases hstep
  | round =>
    rw [hsteps]
    refine ⟨trivial, fun data hdata => along_aboveStart ?_ ?_ ?_ steps⟩
    · obtain rfl := Option.some.inj hdata
      intro r hr _
      obtain rfl := List.mem_singleton.mp hr
      rfl
    · obtain rfl := Option.some.inj hdata
      exact le_refl _
    · exact (searchStep_range (fun node hnode => by
        obtain rfl := Option.some.inj hnode
        exact Nat.zero_le _) hdata).1

end BiometricAuth
