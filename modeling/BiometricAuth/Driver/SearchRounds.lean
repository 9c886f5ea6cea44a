import BiometricAuth.Driver.Release
import BiometricAuth.Driver.SearchRange

/-!
# How long a search goes on

Each round of `community_ops_search` is one identification of libfprint. The search is over after a
round that ends with no match; after a match it goes on behind the feature that was found, and after
an error it goes on as well, one index further.

An `IdentifyRound` is a round as libfprint sees it, and a search that is not stopped runs on a list
of them (`roundsSchedule`). `searchRound_round` says what one round does, and with the features left
behind the cursor as the measure (`featuresFrom`) it bounds the rounds of a search without errors.

Main result: `endsInTime_of_clean`.
-/

namespace BiometricAuth

open Process World

/-! ### Rounds -/

/-- An identification of libfprint: when and how the match callback is called, if it is, before the
completion. -/
structure IdentifyRound (π : Type) where
  /-- What the callback is told; `none` if the identification fails before a match is decided. -/
  report : Option (MatchReport π)
  /-- The sleeps before the one with the completion. -/
  sleeps : List (List (Event π))
  /-- What happens in that one before the completion. -/
  before : List (Event π)
  /-- Nothing but the report happens in the meantime. -/
  events : sleeps.flatten ++ before = report.toList.map Event.matchReport

namespace IdentifyRound

variable {π : Type}

/-- The schedule of a round, up to the sleep after the completion. -/
def schedule (round : IdentifyRound π) : List (List (Event π)) :=
  round.sleeps ++ [round.before ++ [.deviceIdentified], []]

/-- The round ends with an error. -/
def IsError (round : IdentifyRound π) : Prop :=
  round.report = none ∨ round.report = some .error

/-- The steps of a round. -/
def steps (round : IdentifyRound π) : List (SearchStep π) :=
  .round :: round.report.toList.map .report

end IdentifyRound

section SearchRounds

variable {π : Type}

/-- The schedule of a search. -/
def roundsSchedule (rounds : List (IdentifyRound π)) : List (List (Event π)) :=
  rounds.flatMap IdentifyRound.schedule

/-- Its steps. -/
def roundsSteps (rounds : List (IdentifyRound π)) : List (SearchStep π) :=
  rounds.flatMap IdentifyRound.steps

/-- The call of `fp_device_identify`. -/
def FpCall.isDeviceIdentify : FpCall π → Bool
  | .deviceIdentify _ => true
  | _ => false

/-- How often libfprint was asked to identify. -/
def World.identifyCalls (w : World π) : ℕ := w.trace.countP FpCall.isDeviceIdentify

variable {fp : Libfprint π} {w w' w₀ : World π} {es es' : List (List (Event π))}

/-! ### Identifications asked for -/

/-- No event asks for one. -/
theorem deliver_identifyCalls {e : Event π} (h : w.deliver fp e = some w') :
    w'.identifyCalls = w.identifyCalls := by
  unfold World.identifyCalls
  cases deliver_inv h with
  | stopByUser => rw [communityOpsStopByUser_trace]
  | deviceOpened ok => cases ok <;> rfl
  | captureCompleted image => cases image <;> rfl
  | verifyReport report => cases report <;> simp [World.onMatchCbVerify, FpCall.isDeviceIdentify]
  | identifyReport _ hreport =>
    obtain ⟨uid, dev, rfl, -⟩ := exists_of_onMatchCbIdentify hreport
    simp [FpCall.isDeviceIdentify]
  | searchReport _ hreport =>
    obtain ⟨data, dev, ctrlFlag, rfl, -⟩ := exists_of_onMatchCbSearch hreport
    simp [FpCall.isDeviceIdentify]
  | ignored | deviceClosed | enrollProgress | enrollError | serializeError | enrollPrint
    | verifyCompleted | deviceIdentified => rfl

/-- A round asks for one at most, whatever becomes of it. -/
theorem searchRound_identifyCalls (fp : Libfprint π) (uid idxEnd : ℤ) (w : World π)
    (es : List (List (Event π))) :
    (searchRound fp uid idxEnd w es).state.identifyCalls ≤ w.identifyCalls + 1 := by
  have hawait : ∀ n, (awaitCompletion (opPoller fp) opsSearchTimeout notifySearchTimeout).Leads
      (fun w => w.identifyCalls = n) fun w => w.identifyCalls = n := by
    intro n
    refine Proc.Leads.bind (Poller.poll_leads ?_ (fun _ h => h) fun _ h => h) fun exit => ?_
    · exact fun s e s' hs he => (deliver_identifyCalls he).trans hs
    · cases exit <;> exact fun _ _ h => h
  simp only [searchRound, Proc.modify_bind, Proc.get_bind]
  cases hprints : createPrints fp.deserialize w.startAsync.uuidOf w.startAsync.priv.aesKey
      w.startAsync.store.db w.startAsync.dev uid w.startAsync.searchData.index idxEnd with
  | none => exact Nat.le_succ _
  | some prints =>
    have hcalls := hawait (w.identifyCalls + 1)
      (w.startAsync.beginAsync .deviceSearch (.deviceIdentify prints)) es (by
          change List.countP _ (w.trace ++ _) = _
          simp [World.identifyCalls, FpCall.isDeviceIdentify])
    exact hcalls.le

/-! ### One round -/

/-- The flag of the loop after a round. -/
def ctrlFlagAfter (flag : CtrlFlag) : Option (MatchReport π) → CtrlFlag
  | some .noMatch => .done
  | _ => flag

/-- The data after a round, before the cursor is moved on. -/
def dataAfter (fp : Libfprint π) (w : World π) (data : SearchData) :
    Option (MatchReport π) → Option SearchData
  | none => some data
  | some report => searchStep fp w data (.report report)

/-- A round of a search that began in `w₀` ends with `report`. -/
structure RoundEnds (fp : Libfprint π) (w₀ w : World π) (report : Option (MatchReport π))
    (w' : World π) : Prop where
  config : SameConfig w w'
  store : w'.store = w.store
  ctrlFlag : w'.priv.ctrlFlag = ctrlFlagAfter w.priv.ctrlFlag report
  data : dataAfter fp w₀ w.searchData report = some w'.searchData

/-- The callback and the completion. -/
theorem roundEnds_of_callback (hconfig : SameConfig w₀ w) (hstore : w.store = w₀.store)
    {report : MatchReport π} (hw : InFlight .deviceSearch w)
    (h : World.onMatchCbSearch fp w report = some w') : RoundEnds fp w₀ w (some report) w' := by
  have hframe := onMatchCbSearch_frame h
  have hstep := onMatchCbSearch_step fp w report
  rw [h, Option.map_some, searchStep_config hconfig hstore] at hstep
  refine ⟨hframe.config, hframe.store (by simp [hw.pending]), ?_, hstep.symm⟩
  cases report with
  | error | noMatch =>
    obtain rfl := Option.some.inj h
    rfl
  | matched print =>
    simp only [World.onMatchCbSearch, Option.bind_eq_bind, Option.bind_eq_some_iff] at h
    obtain ⟨infos, -, data, -, h⟩ := h
    obtain rfl := Option.some.inj h
    rfl

/-- The events of a round, without the time. -/
theorem deliverAll_round (fp : Libfprint π) (round : IdentifyRound π)
    (hw : InFlight .deviceSearch w) :
    (deliverAll (fun w e => (w.deliver fp e).map timeless) w.timeless
      (round.sleeps.flatten ++ round.before ++ [.deviceIdentified])).toOption =
      match round.report with
      | none => some w.complete.onDeviceIdentify.timeless
      | some report => (World.onMatchCbSearch fp w report).map fun w =>
          w.complete.onDeviceIdentify.timeless := by
  rw [round.events]
  cases round.report with
  | none =>
    -- nothing is reported, and the identification ends
    have hpending : w.timeless.pending = some .deviceSearch := hw.pending
    simp [deliverAll, World.deliver, hpending, Except.toOption]
    rfl
  | some report =>
    -- the report first
    have hdeliver : w.deliver fp (.matchReport report) = World.onMatchCbSearch fp w report := by
      simp only [World.deliver, hw.pending]
    -- its callback makes the same of the world without its time
    have htimeless : (w.deliver fp (.matchReport report)).map timeless =
        (w.timeless.deliver fp (.matchReport report)).map timeless := deliver_timeless w _
    simp only [Option.toList_some, List.map_cons, List.map_nil, List.cons_append, List.nil_append,
      deliverAll, ← htimeless, hdeliver]
    cases hcallback : World.onMatchCbSearch fp w report with
    | none => rfl
    | some w₁ =>
      -- then the end of the identification
      have hw₁ : InFlight .deviceSearch w₁ :=
        hw.deliver ⟨rfl, by simp⟩ (hdeliver.trans hcallback)
      have hpending : w₁.timeless.pending = some .deviceSearch := hw₁.pending
      simp [World.deliver, hpending, Except.toOption]
      rfl

/-- The count of the time does not matter, nor does the completion. -/
theorem RoundEnds.of_timeless {report : Option (MatchReport π)} {w₁ : World π}
    (h : RoundEnds fp w₀ w report w₁) (hw' : w'.timeless = w₁.complete.onDeviceIdentify.timeless) :
    RoundEnds fp w₀ w report w' := by
  have hfields : w'.searchData = w₁.searchData ∧ w'.priv.ctrlFlag = w₁.priv.ctrlFlag ∧
      w'.dev = w₁.dev ∧ w'.priv.aesKey = w₁.priv.aesKey ∧ w'.priv.timeoutMS = w₁.priv.timeoutMS ∧
      w'.uuidOf = w₁.uuidOf ∧ w'.store = w₁.store := by
    simp only [timeless, complete, onDeviceIdentify, setAsynDone, World.mk.injEq,
      DriverInfo.mk.injEq] at hw'
    obtain ⟨hdev, ⟨htimeout, -, hctrl, -, hkey⟩, hstore, huuid, -, -, -, -, hdata, -⟩ := hw'
    exact ⟨hdata, hctrl, hdev, hkey, htimeout, huuid, hstore⟩
  obtain ⟨hdata, hctrl, hdev, hkey, htimeout, huuid, hstore⟩ := hfields
  exact ⟨h.config.trans ⟨by rw [hdev], hkey, htimeout, huuid⟩, hstore.trans h.store,
    hctrl.trans h.ctrlFlag, h.data.trans (congrArg some hdata.symm)⟩

/-- The loop of a round is left when the round ends, unless the callback crashes. -/
theorem poll_round (hconfig : SameConfig w₀ w) (hstore : w.store = w₀.store)
    (hw : InFlight .deviceSearch w) (round : IdentifyRound π) {lead : List (List (Event π))}
    (hlead : lead.flatten = []) (rest : List (List (Event π)))
    (hstep : ∀ report, round.report = some report →
      (searchStep fp w₀ w.searchData (.report report)).isSome = true) :
    ∃ exit w' es', (opPoller fp).poll w (lead ++ (round.schedule ++ rest)) = .ret exit w' es' ∧
      (es' = [] :: rest ∨ es' = rest) ∧ RoundEnds fp w₀ w round.report w' ∧
      w'.priv.ctrlFlag ≠ .stoping := by
  -- what is told before the round ends does not complete the operation
  have hquiet : ∀ e ∈ round.sleeps.flatten ++ round.before, QuietFor .deviceSearch e := by
    intro e he
    rw [round.events] at he
    obtain ⟨report, -, rfl⟩ := List.mem_map.mp he
    exact ⟨rfl, by simp⟩
  have hpre : ∀ evs ∈ lead ++ round.sleeps, ∀ e ∈ evs, QuietFor .deviceSearch e := by
    intro evs hevs e he
    refine hquiet e (List.mem_append_left _ ?_)
    have hmem : e ∈ (lead ++ round.sleeps).flatten := List.mem_flatten.mpr ⟨evs, hevs, he⟩
    rwa [List.flatten_append, hlead, List.nil_append] at hmem
  have hcore := (awaits_pollerOf fp .deviceSearch).poll_core rest (e := .deviceIdentified)
    (fun s s' hs he => by
      have he : s.deliver fp .deviceIdentified = some s' := he
      simpa [forgetsFlag] using hs.complete rfl he) hw hpre
    (fun e he => hquiet e (List.mem_append_right _ he))
  -- the events of the round, handed over one after the other, are its report
  rw [List.flatten_append, hlead, List.nil_append, deliverAll_round fp round hw] at hcore
  have hschedule : lead ++ (round.schedule ++ rest) =
      lead ++ round.sleeps ++ (round.before ++ [.deviceIdentified]) :: [] :: rest := by
    simp [IdentifyRound.schedule]
  rw [hschedule]
  -- only a match runs the callback, so only then can the round crash
  cases hreport : round.report with
  | none =>
    rw [hreport] at hcore
    obtain ⟨exit, w', es', hpoll, hes', hw', hover⟩ := hcore
    refine ⟨exit, w', es', hpoll, hes', ?_, hover.ctrlFlag⟩
    have hsame : RoundEnds fp w₀ w none w := ⟨.refl w, rfl, rfl, rfl⟩
    exact hsame.of_timeless hw'
  | some report =>
    rw [hreport] at hcore
    obtain ⟨data, hdata⟩ := Option.isSome_iff_exists.mp (hstep report hreport)
    have hcallback := onMatchCbSearch_step fp w report
    rw [searchStep_config hconfig hstore, hdata] at hcallback
    obtain ⟨w₁, hw₁, -⟩ := Option.map_eq_some_iff.mp hcallback
    simp only [hw₁, Option.map_some] at hcore
    obtain ⟨exit, w', es', hpoll, hes', hw', hover⟩ := hcore
    exact ⟨exit, w', es', hpoll, hes',
      (roundEnds_of_callback hconfig hstore hw hw₁).of_timeless hw', hover.ctrlFlag⟩

/-- The prints of a round depend on the device and the database alone. -/
theorem createPrints_config (hconfig : SameConfig w₀ w) (hstore : w.store = w₀.store)
    (uid cursor idxEnd : ℤ) :
    createPrints fp.deserialize w.uuidOf w.priv.aesKey w.store.db w.dev uid cursor idxEnd =
      createPrints fp.deserialize w₀.uuidOf w₀.priv.aesKey w₀.store.db w₀.dev uid cursor
        idxEnd := by
  simp only [createPrints, BioDev.query, hconfig.uuidOf, hconfig.aesKey, hstore, hconfig.biotype,
    hconfig.deviceName]

/-- A round of the loop, with its prints. -/
theorem searchRound_ends (hconfig : SameConfig w₀ w) (hstore : w.store = w₀.store)
    (hstop : w.priv.ctrlFlag ≠ .stoping) (round : IdentifyRound π)
    {lead : List (List (Event π))} (hlead : lead.flatten = []) (rest : List (List (Event π)))
    {uid idxEnd : ℤ} {prints : List (Option π)}
    (hprints : createPrints fp.deserialize w.uuidOf w.priv.aesKey w.store.db w.dev uid
      w.searchData.index idxEnd = some prints)
    (hdata : (dataAfter fp w₀ w.searchData round.report).isSome = true) :
    ∃ exit w' es', searchRound fp uid idxEnd w (lead ++ (round.schedule ++ rest)) =
        .ret exit w' es' ∧
      (es' = [] :: rest ∨ es' = rest) ∧
      (exit = .done → RoundEnds fp w₀ w round.report w' ∧ w'.priv.ctrlFlag ≠ .stoping) := by
  -- the world that libfprint is called in
  set w₁ : World π := w.startAsync.beginAsync .deviceSearch (.deviceIdentify prints) with hw₁
  have hflight : InFlight .deviceSearch w₁ := ⟨rfl, rfl, hstop⟩
  have hconfig₁ : SameConfig w w₁ := ⟨rfl, rfl, rfl, rfl⟩
  have hstep : ∀ report, round.report = some report →
      (searchStep fp w₀ w₁.searchData (.report report)).isSome = true := by
    intro report hreport
    rw [hreport] at hdata
    exact hdata
  -- the loop is left at the end of the round, or with a timeout or a stop before it
  obtain ⟨exit, w₂, es', hpoll, hes', hends, hstop'⟩ :=
    poll_round (hconfig.trans hconfig₁) hstore hflight round hlead rest hstep
  refine ⟨exit, if exit = .timeout then w₂.setIdle opsSearchTimeout notifySearchTimeout else w₂,
    es', ?_, hes', fun hdone => ?_⟩
  · -- the prints are there, so the round is its call and its loop
    have hbegin : searchRound fp uid idxEnd w (lead ++ (round.schedule ++ rest)) =
        awaitCompletion (opPoller fp) opsSearchTimeout notifySearchTimeout w₁
          (lead ++ (round.schedule ++ rest)) := by
      have hprints₁ : createPrints fp.deserialize w.startAsync.uuidOf w.startAsync.priv.aesKey
          w.startAsync.store.db w.startAsync.dev uid w.startAsync.searchData.index idxEnd =
            some prints := hprints
      simp only [searchRound, Proc.modify_bind, Proc.get_bind, hprints₁]
      rfl
    rw [hbegin]
    exact awaitCompletion_eq_ret.mpr ⟨w₂, hpoll, rfl⟩
  · -- only a loop that is done leaves the state of the round behind
    subst hdone
    exact ⟨⟨hconfig₁.trans hends.config, hends.store, hends.ctrlFlag, hends.data⟩, hstop'⟩

/-! ### The features that are left -/

/-- The features of the requested range that can be listed, each with its user and its index. -/
def featuresIn (w : World π) (uid idxStart idxEnd : ℤ) : Finset (ℤ × ℤ) :=
  (((selectRows w.store.db (w.dev.query uid idxStart idxEnd)).filter fun r =>
    ((w.dev.query uid idxStart idxEnd).columns r).isListed w.uuidOf).map fun r =>
      (r.uid, r.eigenIndex)).toFinset

/-- Those from the cursor on. -/
def featuresFrom (w : World π) (uid idxStart idxEnd cursor : ℤ) : Finset (ℤ × ℤ) :=
  (featuresIn w uid idxStart idxEnd).filter fun feature => cursor ≤ feature.2

variable {data data' : SearchData} {uid idxStart idxEnd : ℤ}

/-- Every feature that a callback lists is one of the range, unless it lies below `idx_start`. -/
theorem exists_feature_of_listed {cursor : ℤ} {infos : List FeatureInfo} {info : FeatureInfo}
    (hread : ReadsIndex w.store.db (w.dev.query uid cursor idxEnd))
    (hinfos : bioStoGetFeatureInfo w.uuidOf w.store.db (w.dev.query uid cursor idxEnd) = some infos)
    (hinfo : info ∈ infos) (hstart : idxStart ≤ info.index) :
    ∃ feature ∈ featuresIn w uid idxStart idxEnd, feature.2 = info.index := by
  obtain ⟨r, hr, hselects, hlisted, hheader⟩ := exists_row_of_mem_features hinfos hinfo
  have hindex : info.index = r.eigenIndex := by
    rw [hheader]
    exact hread r hr hselects
  obtain ⟨-, hselects⟩ := FeatureQuery.selects_iff.mp hselects
  refine ⟨(r.uid, r.eigenIndex), ?_, hindex.symm⟩
  rw [featuresIn, List.mem_toFinset]
  refine List.mem_map_of_mem (List.mem_filter.mpr ⟨mem_selectRows.mpr ⟨hr, ?_⟩, hlisted⟩)
  exact FeatureQuery.selects_iff.mpr ⟨hindex ▸ hstart, hselects⟩

/-- **Measure.** Behind a feature of the range that lies behind the cursor there are less. -/
theorem card_featuresFrom_lt {feature : ℤ × ℤ} {cursor : ℤ}
    (hfeature : feature ∈ featuresIn w uid idxStart idxEnd) (hcursor : cursor ≤ feature.2) :
    (featuresFrom w uid idxStart idxEnd (feature.2 + 1)).card <
      (featuresFrom w uid idxStart idxEnd cursor).card := by
  have hsub : featuresFrom w uid idxStart idxEnd (feature.2 + 1) ⊆
      featuresFrom w uid idxStart idxEnd cursor := by
    intro f hf
    obtain ⟨hf, hle⟩ := Finset.mem_filter.mp hf
    exact Finset.mem_filter.mpr ⟨hf, by omega⟩
  refine Finset.card_lt_card ((Finset.ssubset_iff_of_subset hsub).mpr ⟨feature, ?_, fun hf => ?_⟩)
  · exact Finset.mem_filter.mpr ⟨hfeature, hcursor⟩
  · exact absurd (Finset.mem_filter.mp hf).2 (by omega)

/-! ### Clean rounds -/

/-- Neither a step of the search nor what the driver does next crashes. -/
def CrashFree (fp : Libfprint π) (w : World π) (data : SearchData) : SearchStep π → Prop
  | .round => ∃ data', searchStep fp w data .round = some data' ∧
      (createPrints fp.deserialize w.uuidOf w.priv.aesKey w.store.db w.dev data'.uid data'.index
        data'.idxEnd).isSome = true
  | .report report => ∃ data', searchStep fp w data (.report report) = some data' ∧
      (searchStep fp w data' .round).isSome = true

/-- libfprint reports a match with one of the prints it was given. -/
def FromGallery (fp : Libfprint π) (w : World π) (data : SearchData) : SearchStep π → Prop
  | .report (.matched print) => ∃ prints, createPrints fp.deserialize w.uuidOf w.priv.aesKey
      w.store.db w.dev data.uid data.index data.idxEnd = some prints ∧ some print ∈ prints
  | _ => True

/-- The conditions on a step. -/
def Clean (fp : Libfprint π) (w : World π) (data : SearchData) (step : SearchStep π) : Prop :=
  CrashFree fp w data step ∧ AboveStart fp w data step ∧ FromGallery fp w data step

/-- A match moves the cursor to a feature of the range. -/
theorem exists_feature_of_matched (hequal : ∀ print, fp.equal print print = true) {print : π}
    (hread : ReadsIndex w.store.db (w.dev.query data.uid data.index data.idxEnd))
    (hinside : data.Inside) (hclean : Clean fp w data (.report (.matched print)))
    (h : searchStep fp w data (.report (.matched print)) = some data') :
    ∃ feature ∈ featuresIn w data.uid data.idxStart data.idxEnd,
      data.index ≤ feature.2 ∧ data'.index = feature.2 := by
  obtain ⟨-, habove, prints, hprints, hprint⟩ := hclean
  -- the print is one of the gallery, so a feature that is listed has an equal sample
  obtain ⟨infos, hinfos, info, hinfo, sample, hsample, hsame⟩ :=
    exists_equal_of_gallery hequal hprints hprint
  have hentry : (info, sample) ∈ equalSamples fp w.priv.aesKey print infos :=
    mem_equalSamples.mpr ⟨hinfo, hsample, hsame⟩
  -- the cursor goes to the last equal one
  obtain ⟨infos', hinfos', hindex⟩ := searchStep_index hinside h
  obtain rfl := Option.some.inj (hinfos.symm.trans hinfos')
  rcases hindex with ⟨hnone, -⟩ | ⟨last, hlast, hindex⟩
  · -- there is one
    rw [hnone] at hentry
    cases hentry
  · obtain ⟨hlisted, hmem, hmatch⟩ := mem_equalSamples.mp hlast
    have hinfos := (listFeatureInfo_eq_some_iff.mp hinfos).1
    -- it is not below the range, where no feature looks alike
    have hstart : data.idxStart ≤ last.1.index :=
      not_lt.mp fun hlt => habove infos hinfos last.1 hlisted hlt last.2 hmem hmatch
    obtain ⟨feature, hfeature, hlast⟩ := exists_feature_of_listed hread hinfos hlisted hstart
    -- and not below the cursor, where nothing is listed
    have hcursor : data.index ≤ last.1.index := le_index_of_listed hread hinfos hlisted
    exact ⟨feature, hfeature, hlast ▸ hcursor, hindex.trans hlast.symm⟩

/-- Without a completion a round does not end. -/
theorem searchRound_ne_ret (hstop : w.priv.ctrlFlag ≠ .stoping) (hes : es.flatten = [])
    {exit : Exit} : searchRound fp uid idxEnd w es ≠ .ret exit w' es' := by
  intro h
  simp only [searchRound, Proc.modify_bind, Proc.get_bind, Proc.bind_eq_ret,
    Proc.ofOption_eq_ret] at h
  obtain ⟨prints, w, es, ⟨-, rfl, rfl⟩, h⟩ := h
  obtain ⟨w₁, hpoll, -⟩ := awaitCompletion_eq_ret.mp h
  have hflight : InFlight .deviceSearch
      (w.startAsync.beginAsync .deviceSearch (.deviceIdentify prints)) := ⟨rfl, rfl, hstop⟩
  have hnothing : ∀ evs ∈ es, ∀ e ∈ evs, QuietFor .deviceSearch e := by
    intro evs hevs e he
    have hmem : e ∈ es.flatten := List.mem_flatten.mpr ⟨evs, hevs, he⟩
    rw [hes] at hmem
    cases hmem
  have hquiet := (awaits_pollerOf fp .deviceSearch).resume_quiet hflight .look hnothing []
  rw [hes] at hquiet
  obtain ⟨stage, w₂, hresume, -⟩ := hquiet
  rw [List.append_nil, Poller.resume_look] at hresume
  cases hpoll.symm.trans hresume

/-- What a round leaves the loop with when the loop goes on. -/
structure LoopsOn (fp : Libfprint π) (w₀ w : World π) (report : Option (MatchReport π))
    (data' : SearchData) (w' : World π) : Prop where
  config : SameConfig w w'
  store : w'.store = w.store
  stopping : w'.priv.ctrlFlag ≠ .stoping
  ctrlFlag : w'.priv.ctrlFlag = ctrlFlagAfter w.priv.ctrlFlag report
  data : searchStep fp w₀ data' .round = some w'.searchData
  calls : w'.identifyCalls ≤ w.identifyCalls + 1

/-- **Step lemma.** After a round the loop has returned, or it goes on with the rest. -/
theorem searchRounds_round (hconfig : SameConfig w₀ w) (hstore : w.store = w₀.store)
    (hstop : w.priv.ctrlFlag ≠ .stoping) (hdone : w.priv.ctrlFlag ≠ .done)
    (round : IdentifyRound π) {lead : List (List (Event π))} (hlead : lead.flatten = [])
    (rest : List (List (Event π))) {prints : List (Option π)}
    (hprints : createPrints fp.deserialize w₀.uuidOf w₀.priv.aesKey w₀.store.db w₀.dev uid
      w.searchData.index idxEnd = some prints)
    (hdata : dataAfter fp w₀ w.searchData round.report = some data')
    (hbump : (searchStep fp w₀ data' .round).isSome = true) (fuel : ℕ) :
    (∃ exit w' es', searchRounds fp uid idxEnd (fuel + 1) w (lead ++ (round.schedule ++ rest)) =
        .ret exit w' es' ∧ w'.identifyCalls ≤ w.identifyCalls + 1) ∨
      ∃ lead' w', searchRounds fp uid idxEnd (fuel + 1) w (lead ++ (round.schedule ++ rest)) =
          searchRounds fp uid idxEnd fuel w' (lead' ++ rest) ∧
        lead'.flatten = [] ∧ lead'.length ≤ 1 ∧ LoopsOn fp w₀ w round.report data' w' := by
  -- the world of the round has the configuration and the store of the search, hence its prints
  rw [← createPrints_config hconfig hstore] at hprints
  obtain ⟨exit, w₁, es₁, hret, hes₁, hends⟩ := searchRound_ends hconfig hstore hstop round hlead
    rest hprints (Option.isSome_of_mem hdata)
  have hcalls := searchRound_identifyCalls fp uid idxEnd w (lead ++ (round.schedule ++ rest))
  rw [hret] at hcalls
  -- how the loop goes on, by the way its round has ended
  have hrun : searchRounds fp uid idxEnd (fuel + 1) w (lead ++ (round.schedule ++ rest)) =
      if exit = .done then
        (Proc.ofOption (cInt (w₁.searchData.index + 1)) >>= fun index => do
          Proc.modify fun w => { w with searchData := { w.searchData with index := index } }
          searchRounds fp uid idxEnd fuel) w₁ es₁
      else .ret exit w₁ es₁ := by
    rw [searchRounds, Proc.get_bind, if_neg hdone, Proc.bind_apply, hret]
    by_cases hexit : exit = .done
    · simp only [if_pos hexit, Proc.get_bind]
    · simp only [if_neg hexit, Proc.pure_apply]
  by_cases hexit : exit = .done
  · -- done: the cursor moves behind the feature, and the loop takes what is left
    obtain ⟨hround, hstop'⟩ := hends hexit
    have hdata₁ : w₁.searchData = data' := Option.some.inj (hround.data.symm.trans hdata)
    obtain ⟨data₂, hdata₂⟩ := Option.isSome_iff_exists.mp hbump
    obtain ⟨index, hindex, rfl⟩ := Option.map_eq_some_iff.mp hdata₂
    rw [← hdata₁] at hindex hdata₂
    rw [if_pos hexit, hindex] at hrun
    -- what is left of the schedule of the round is at most one empty sleep
    obtain ⟨lead', hlead', hlength, rfl⟩ : ∃ lead' : List (List (Event π)),
        lead'.flatten = [] ∧ lead'.length ≤ 1 ∧ es₁ = lead' ++ rest := by
      rcases hes₁ with rfl | rfl
      · exact ⟨[[]], rfl, le_refl _, rfl⟩
      · exact ⟨[], rfl, Nat.zero_le _, rfl⟩
    refine .inr ⟨lead', _, hrun, hlead', hlength, ?_⟩
    exact ⟨hround.config.trans ⟨rfl, rfl, rfl, rfl⟩, hround.store, hstop', hround.ctrlFlag,
      hdata₁ ▸ hdata₂, hcalls⟩
  · -- a timeout or a stop ends the loop
    rw [if_neg hexit] at hrun
    exact .inl ⟨exit, w₁, es₁, hrun, hcalls⟩

/-- The rounds that take place: those up to the first that ends with no match. -/
def untilNoMatch : List (IdentifyRound π) → List (IdentifyRound π)
  | [] => []
  | round :: rounds =>
    match round.report with
    | some .noMatch => [round]
    | _ => round :: untilNoMatch rounds

/-- The first round takes place. -/
theorem untilNoMatch_cons (round : IdentifyRound π) (rounds : List (IdentifyRound π)) :
    ∃ later, untilNoMatch (round :: rounds) = round :: later ∧
      (∀ print, round.report = some (.matched print) → later = untilNoMatch rounds) := by
  rw [untilNoMatch]
  split
  next hreport => exact ⟨[], rfl, fun print hmatched => nomatch hreport.symm.trans hmatched⟩
  · exact ⟨untilNoMatch rounds, rfl, fun _ _ => rfl⟩

/-- Without a completion libfprint is called once more at most, as nothing ends that call. -/
theorem searchRounds_identifyCalls_le (hstop : w.priv.ctrlFlag ≠ .stoping) (hes : es.flatten = [])
    (fuel : ℕ) :
    (searchRounds fp uid idxEnd (fuel + 1) w es).state.identifyCalls ≤ w.identifyCalls + 1 := by
  rw [searchRounds, Proc.get_bind]
  split
  · exact Nat.le_succ _
  · have hcalls := searchRound_identifyCalls fp uid idxEnd w es
    rw [Proc.bind_apply]
    cases houtcome : searchRound fp uid idxEnd w es with
    | ret exit w' es' => exact absurd houtcome (searchRound_ne_ret hstop hes)
    | waiting w' | crashed w' =>
      rw [houtcome] at hcalls
      exact hcalls

/-- After a match fewer features of the range are behind the cursor. -/
theorem LoopsOn.card_featuresFrom_lt (hequal : ∀ print, fp.equal print print = true)
    {report : Option (MatchReport π)} (hon : LoopsOn fp w₀ w report data' w')
    (hinside : w.searchData.Inside) (hread : ReadsIndex w₀.store.db
      (w₀.dev.query w.searchData.uid w.searchData.index w.searchData.idxEnd)) {print : π}
    (hclean : Clean fp w₀ w.searchData (.report (.matched print)))
    (hdata : searchStep fp w₀ w.searchData (.report (.matched print)) = some data') :
    w.searchData.index < w'.searchData.index ∧
      (featuresFrom w₀ data'.uid data'.idxStart data'.idxEnd w'.searchData.index).card <
        (featuresFrom w₀ w.searchData.uid w.searchData.idxStart w.searchData.idxEnd
          w.searchData.index).card := by
  obtain ⟨hinside', huid, hstart, hend, -⟩ := searchStep_range hinside hdata
  obtain ⟨feature, hfeature, hbehind, hfound⟩ :=
    exists_feature_of_matched hequal hread hinside hclean hdata
  have hindex : w'.searchData.index = data'.index + 1 := searchStep_index hinside' hon.data
  rw [huid, hstart, hend, hindex, hfound]
  exact ⟨by omega, BiometricAuth.card_featuresFrom_lt hfeature hbehind⟩

/-- **Run lemma.** By induction on the rounds; the features behind the cursor are the measure. -/
theorem searchRounds_bound (hequal : ∀ print, fp.equal print print = true)
    (rounds : List (IdentifyRound π)) (hclean : ∀ round ∈ untilNoMatch rounds, ¬ round.IsError)
    {w : World π} (hconfig : SameConfig w₀ w) (hstore : w.store = w₀.store)
    (hstop : w.priv.ctrlFlag ≠ .stoping) {lead : List (List (Event π))} (hlead : lead.flatten = [])
    {data : SearchData} (hinside : data.Inside)
    (hround : searchStep fp w₀ data .round = some w.searchData)
    (hread : ReadsIndex w₀.store.db (w₀.dev.query data.uid 0 data.idxEnd))
    (hcursor : 0 ≤ w.searchData.index)
    (halong : Machine.Along (searchStep fp w₀) (Clean fp w₀) data
      (roundsSteps (untilNoMatch rounds))) {fuel : ℕ}
    (hfuel : (lead ++ roundsSchedule rounds).length < fuel) {left : ℕ}
    (hleft : (featuresFrom w₀ data.uid data.idxStart data.idxEnd w.searchData.index).card ≤ left) :
    (searchRounds fp data.uid data.idxEnd fuel w
      (lead ++ roundsSchedule rounds)).state.identifyCalls ≤
        w.identifyCalls + left + 1 ∧
      (left + 1 ≤ rounds.length → ∃ exit w' es',
        searchRounds fp data.uid data.idxEnd fuel w (lead ++ roundsSchedule rounds) =
          .ret exit w' es') := by
  -- by induction on the rounds, for every cursor and every bound on the features behind it
  induction rounds generalizing w lead data fuel left with
  | nil =>
    -- no round is left, and with it no completion
    obtain ⟨fuel, rfl⟩ : ∃ n, fuel = n + 1 := Nat.exists_eq_succ_of_ne_zero (by omega)
    have hes : (lead ++ roundsSchedule (π := π) []).flatten = [] := by
      simp [hlead, roundsSchedule]
    exact ⟨(searchRounds_identifyCalls_le hstop hes fuel).trans (by omega),
      fun h => absurd h (by simp)⟩
  | cons round rounds ih =>
    obtain ⟨fuel, rfl⟩ : ∃ n, fuel = n + 1 := Nat.exists_eq_succ_of_ne_zero (by omega)
    -- the search is over when the round is looked at
    by_cases hdone : w.priv.ctrlFlag = .done
    · rw [searchRounds, Proc.get_bind, if_pos hdone]
      exact ⟨(Nat.le_add_right _ _).trans (Nat.le_add_right _ _), fun _ => ⟨_, _, _, rfl⟩⟩
    -- the round has its prints, and ends with a report
    obtain ⟨hinside₁, huid, hstart, hend, -⟩ := searchStep_range hinside hround
    obtain ⟨later, hlater, hmatched⟩ := untilNoMatch_cons round rounds
    rw [hlater] at hclean halong
    obtain ⟨⟨⟨data₁, hdata₁, hprints⟩, -⟩, halong⟩ := halong
    obtain rfl := Option.some.inj (hround.symm.trans hdata₁)
    obtain ⟨prints, hprints⟩ := Option.isSome_iff_exists.mp hprints
    rw [huid, hend] at hprints
    obtain ⟨report, hreport⟩ : ∃ report, round.report = some report :=
      Option.ne_none_iff_exists'.mp fun hnone => hclean round (by simp) (.inl hnone)
    have hnext := halong _ hround
    rw [hreport, Option.toList_some, List.map_singleton] at hnext
    obtain ⟨hstep, hnext⟩ := hnext
    obtain ⟨data₂, hdata₂, hbump⟩ := hstep.1
    have hschedule : lead ++ roundsSchedule (round :: rounds) =
        lead ++ (round.schedule ++ roundsSchedule rounds) := rfl
    rw [hschedule] at hfuel ⊢
    rcases searchRounds_round hconfig hstore hstop hdone round hlead (roundsSchedule rounds) hprints
        (by rw [hreport]; exact hdata₂) hbump fuel with
      ⟨exit, w₁, es₁, hrun, hcalls⟩ | ⟨lead', w₁, hrun, hlead', hlength', hon⟩
    · -- the round has ended the loop: one call, and it has returned
      rw [hrun]
      exact ⟨hcalls.trans (by omega), fun _ => ⟨exit, w₁, es₁, rfl⟩⟩
    rw [hrun]
    have hfuel : (lead' ++ roundsSchedule rounds).length < fuel := by
      simp only [IdentifyRound.schedule, List.length_append, List.length_cons, List.length_nil]
        at hfuel ⊢
      omega
    cases report with
    | error => exact absurd (.inr hreport) (hclean round (by simp))
    | noMatch =>
      -- the loop is over
      obtain ⟨fuel, rfl⟩ : ∃ n, fuel = n + 1 := Nat.exists_eq_succ_of_ne_zero (by omega)
      have hover : w₁.priv.ctrlFlag = .done := by
        rw [hon.ctrlFlag, hreport]
        rfl
      rw [searchRounds, Proc.get_bind, if_pos hover]
      exact ⟨hon.calls.trans (by omega), fun _ => ⟨_, _, _, rfl⟩⟩
    | matched print =>
      -- the cursor is behind a feature more
      obtain ⟨hinside₂, huid₂, -, hend₂, -⟩ := searchStep_range hinside₁ hdata₂
      have hread₁ := hread.of_le hcursor
      rw [← huid, ← hend] at hread₁
      obtain ⟨hbehind, hless⟩ := hon.card_featuresFrom_lt hequal hinside₁ hread₁ hstep hdata₂
      rw [← huid, ← hstart, ← hend] at hleft
      rw [huid] at huid₂
      rw [hend] at hend₂
      obtain rfl := hmatched print hreport
      obtain ⟨hbound, hret⟩ := ih (fun r hr => hclean r (by simp [hr])) (hconfig.trans hon.config)
        (hon.store.trans hstore) hon.stopping hlead' hinside₂ hon.data
        (by rwa [huid₂, hend₂]) (hcursor.trans hbehind.le) (hnext data₂ hdata₂) hfuel
        (Nat.le_sub_one_of_lt (hless.trans_le hleft))
      rw [huid₂, hend₂] at hbound hret
      have hcalls := hon.calls
      exact ⟨hbound.trans (by omega), fun h => hret (by rw [List.length_cons] at h; omega)⟩

/-! ### When a search ends -/

/-- A search on these rounds ends in time: it asks for one identification more than there are
features in the range at most, it has returned after that many, and it returns as soon as a round
that takes place ends with an error. -/
structure EndsInTime (fp : Libfprint π) (w : World π) (uid idxStart idxEnd : ℤ)
    (rounds : List (IdentifyRound π)) : Prop where
  calls : (communityOpsSearch fp uid idxStart idxEnd w
      (roundsSchedule rounds)).state.identifyCalls ≤
    w.identifyCalls + (featuresIn w uid idxStart idxEnd).card + 1
  returns : (featuresIn w uid idxStart idxEnd).card + 1 ≤ rounds.length →
    ∃ infos w' es', communityOpsSearch fp uid idxStart idxEnd w (roundsSchedule rounds) =
      .ret infos w' es'
  error : ∀ before round after, untilNoMatch rounds = before ++ round :: after → round.IsError →
    ∃ infos w' es',
      communityOpsSearch fp uid idxStart idxEnd w (roundsSchedule rounds) = .ret infos w' es' ∧
        w'.identifyCalls ≤ w.identifyCalls + before.length + 1

variable (fp uid idxStart idxEnd) in
/-- After the loop no identification is asked for, and the search returns. -/
theorem communityOpsSearch_of_loop (henable : w.dev.enable = true) (es : List (List (Event π))) :
    let begun : World π :=
      { w with
        searchData := { uid, idxStart, idxEnd, index := 0, foundHead := [], found := some 0 }
        dev := (w.dev.setDevStatus opsTypeSearch).setNotifyAbsMid midExtendedMessage }
    (communityOpsSearch fp uid idxStart idxEnd w es).state.identifyCalls =
        (searchLoop fp uid idxEnd begun es).state.identifyCalls ∧
      ((∃ exit w' es', searchLoop fp uid idxEnd begun es = .ret exit w' es') →
        ∃ infos w' es', communityOpsSearch fp uid idxStart idxEnd w es = .ret infos w' es') := by
  intro begun
  -- what follows the loop
  have hsearch : communityOpsSearch fp uid idxStart idxEnd w es =
      (searchLoop fp uid idxEnd >>= fun exit => if exit = .done then (do
        let w ← Proc.get
        if w.searchData.found.isSome then
          Proc.modify fun w =>
            { w with
              dev := ((w.dev.setOpsAbsResult opsSearchMatch).setNotifyAbsMid
                notifySearchMatch).setNotifyAbsMid midExtendedMessage }
        else
          Proc.modify fun w =>
            { w with
              dev := ((w.dev.setOpsAbsResult opsSearchNoMatch).setNotifyAbsMid
                notifySearchNoMatch).setNotifyAbsMid midExtendedMessage }
        Proc.modify fun w => { w with dev := w.dev.setDevStatus devsCommIdle }
        return w.searchData.foundList) else pure []) begun es := by
    simp only [communityOpsSearch, Proc.modify_bind, Proc.get_bind, henable, Bool.true_eq_false,
      if_false]
    rfl
  rw [hsearch, Proc.bind_apply]
  cases searchLoop fp uid idxEnd begun es with
  | waiting w' | crashed w' =>
    -- the loop did not come to its end, and neither does the call
    refine ⟨rfl, ?_⟩
    rintro ⟨_, _, _, h⟩
    cases h
  | ret exit w' es' =>
    -- after the loop only the result and the status are set
    by_cases hdone : exit = .done
    · simp only [if_pos hdone, Proc.get_bind]
      split <;> exact ⟨rfl, fun _ => ⟨_, _, _, rfl⟩⟩
    · simp only [if_neg hdone]
      exact ⟨rfl, fun _ => ⟨_, _, _, rfl⟩⟩

/-- A search ends in time if no round that takes place ends with an error, no step crashes, every
match is one of the prints libfprint was given and equal to no listed sample below `idx_start`, and
the indices that the search selects are read as they are stored. -/
theorem endsInTime_of_clean (hequal : ∀ print, fp.equal print print = true)
    (hstop : w.priv.ctrlFlag ≠ .stoping)
    (hread : ReadsIndex w.store.db (w.dev.query uid 0 idxEnd)) {rounds : List (IdentifyRound π)}
    (hrounds : ∀ round ∈ untilNoMatch rounds, ¬ round.IsError)
    (hclean : Machine.Along (searchStep fp w) (Clean fp w) (.start uid idxStart idxEnd)
      (roundsSteps (untilNoMatch rounds))) :
    EndsInTime fp w uid idxStart idxEnd rounds := by
  have herror : ∀ before round after, untilNoMatch rounds = before ++ round :: after →
      round.IsError → ∃ infos w' es',
        communityOpsSearch fp uid idxStart idxEnd w (roundsSchedule rounds) = .ret infos w' es' ∧
          w'.identifyCalls ≤ w.identifyCalls + before.length + 1 :=
    fun before round after hsplit hreport => absurd hreport (hrounds round (by simp [hsplit]))
  cases henable : w.dev.enable with
  | false =>
    have hret : communityOpsSearch fp uid idxStart idxEnd w (roundsSchedule rounds) =
        .ret [] (disabled { w with
          searchData := { uid, idxStart, idxEnd, index := 0, foundHead := [], found := some 0 } })
          (roundsSchedule rounds) := by
      simp only [communityOpsSearch, Proc.modify_bind, Proc.get_bind, henable, if_true,
        Proc.pure_apply]
    refine ⟨?_, fun _ => ⟨_, _, _, hret⟩, herror⟩
    rw [hret]
    exact (Nat.le_add_right _ _).trans (Nat.le_add_right _ _)
  | true =>
    obtain ⟨hcalls, hreturns⟩ := communityOpsSearch_of_loop fp uid idxStart idxEnd henable
      (roundsSchedule rounds)
    have hinside : (SearchData.start uid idxStart idxEnd).Inside := by
      intro node hnode
      obtain rfl := Option.some.inj hnode
      exact Nat.zero_le _
    have hnothing : ([] : List (List (Event π))).flatten = [] := rfl
    -- the first cursor is the one the steps begin with
    obtain ⟨hbound, hret⟩ := searchRounds_bound hequal rounds hrounds
      (w := { w with
        searchData := { uid, idxStart, idxEnd, index := 0, foundHead := [], found := some 0 }
        dev := (w.dev.setDevStatus opsTypeSearch).setNotifyAbsMid midExtendedMessage })
      ⟨rfl, rfl, rfl, rfl⟩ rfl hstop hnothing hinside rfl hread (le_refl 0) hclean
      (Nat.lt_succ_self _)
      (Finset.card_le_card (Finset.filter_subset _ _))
    refine ⟨?_, fun hlength => hreturns (hret hlength), herror⟩
    rw [hcalls]
    exact hbound

end SearchRounds

/-- A round without a sleep before the completion. -/
def IdentifyRound.ofReport {π : Type} (report : MatchReport π) : IdentifyRound π :=
  ⟨some report, [], [.matchReport report], rfl⟩

/-- What a match with the print of `enrolledWorld` finds. -/
def enrolledEntry : FeatureInfo := ⟨1000, 0, "uru4000", 0, "a", [⟨0, 3, [84, 76, 110, 78]⟩]⟩

/-- A match with the only print there is, and no match behind it. -/
theorem endsInTime_matched : EndsInTime bytesLibfprint enrolledWorld 1000 0 (-1)
    [.ofReport (.matched [1, 2, 3]), .ofReport .noMatch] := by
  have hread : ReadsIndex enrolledWorld.store.db (enrolledWorld.dev.query 1000 0 (-1)) := by
    intro r hr _
    obtain rfl := List.mem_singleton.mp hr
    rfl
  refine endsInTime_of_clean (fun print => beq_self_eq_true print) (by decide) hread ?_ ?_
  · intro round hround
    have hround : round = .ofReport (.matched [1, 2, 3]) ∨ round = .ofReport .noMatch := by
      simpa [untilNoMatch, IdentifyRound.ofReport] using hround
    rcases hround with rfl | rfl <;> rintro (h | h) <;> cases h
  -- the data before the match, after it, and in the second round
  let data₀ : SearchData := ⟨1000, 0, -1, 0, [], some 0⟩
  let data₁ : SearchData := ⟨1000, 0, -1, 0, [enrolledEntry], some 1⟩
  let data₂ : SearchData := ⟨1000, 0, -1, 1, [enrolledEntry], some 1⟩
  have hmatched : searchStep bytesLibfprint enrolledWorld data₀ (.report (.matched [1, 2, 3])) =
      some data₁ := by decide +kernel
  have hprints : createPrints bytesLibfprint.deserialize enrolledWorld.uuidOf
      enrolledWorld.priv.aesKey enrolledWorld.store.db enrolledWorld.dev 1000 0 (-1) =
        some [some [1, 2, 3]] := by decide +kernel
  have hprints' : createPrints bytesLibfprint.deserialize enrolledWorld.uuidOf
      enrolledWorld.priv.aesKey enrolledWorld.store.db enrolledWorld.dev 1000 1 (-1) = some [] := by
    decide +kernel
  refine .cons ⟨⟨data₀, rfl, ?_⟩, trivial, trivial⟩ rfl ?_
  · exact Option.isSome_of_mem hprints
  refine .cons ⟨⟨data₁, hmatched, rfl⟩, ?_, _, hprints, List.mem_singleton_self _⟩ hmatched ?_
  · intro infos hinfos info hinfo hlt
    have hcursor : (0 : ℤ) ≤ info.index := le_index_of_listed hread hinfos hinfo
    exact absurd hlt (not_lt.mpr hcursor)
  refine .cons ⟨⟨data₂, rfl, ?_⟩, trivial, trivial⟩ rfl ?_
  · exact Option.isSome_of_mem hprints'
  exact .cons ⟨⟨data₂, rfl, rfl⟩, trivial, trivial⟩ rfl trivial

/-- After an error libfprint is asked a second time. -/
theorem not_endsInTime_error : ¬ EndsInTime bytesLibfprint enrolledWorld 1000 0 (-1)
    [.ofReport .error, .ofReport .noMatch] := by
  intro h
  have hrun : (communityOpsSearch bytesLibfprint 1000 0 (-1) enrolledWorld
      (roundsSchedule [.ofReport .error, .ofReport .noMatch])).result.map
        (fun r => r.2.identifyCalls) = some 2 := by decide +kernel
  obtain ⟨infos, w', es', hret, hcalls⟩ := h.error [] _ _ rfl (.inr rfl)
  rw [hret] at hrun
  have htwo : w'.identifyCalls = 2 := Option.some.inj hrun
  rw [htwo] at hcalls
  exact absurd hcalls (by decide)

end BiometricAuth
