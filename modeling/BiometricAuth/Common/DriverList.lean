import BiometricAuth.Daemon.Bodies
import BiometricAuth.Lib.FlagTable

/-!
# Loading the drivers: `bio_driver_list_init`

The configuration has a group for each driver, with the path of its shared object. The
drivers are loaded in the order of the groups. In `ops_configure` a driver gets its id: one
of its own below `BIO_DRVID_DYNAMIC_START`, or what `bio_get_empty_driver_id` returns for
the drivers loaded so far. A driver that fails after that is dropped, and its id with it.

`bio_get_empty_driver_id` marks the ids of the list in `drv_id_list` and looks for the first
unmarked one. When all are marked its loop ends with `i` behind the table, which is then read
once more. `bioGetEmptyDriverIdTable` is the function with the bounds of the table;
`bioGetEmptyDriverId` has what that read finds as a parameter instead.

Main results:

* `bioGetEmptyDriverIdTable_cases`: the least free id, or an access out of bounds when there
  is none;
* `bioDriverListInit_run`: the ids after a run over some groups;
* `driverIds_distinct_iff`: when the ids are the least free ones, and distinct.
-/

namespace BiometricAuth

/-! ### `bio_get_empty_driver_id` -/

/-- The places of `drv_id_list` that belong to the ids of a list. -/
def dynamicPlaces (drvIds : List ℤ) : List ℤ :=
  (drvIds.filter fun id => decide ((bioDrvidDynamicStart : ℤ) ≤ id)).map
    fun id => id - bioDrvidDynamicStart

/-- `bio_get_empty_driver_id`; `none` when `drv_id_list` is accessed out of its bounds. -/
def bioGetEmptyDriverIdTable (drvIds : List ℤ) : Option ℤ := do
  let drvIdList ← FlagTable.markAll (List.replicate dynamicIds false) (dynamicPlaces drvIds)
  let found ← FlagTable.scan drvIdList dynamicIds 0
  -- the loop that finds nothing leaves `i` at the size of the table
  let i := found.getD dynamicIds
  if ← FlagTable.get? drvIdList i then some (-1) else some (i + bioDrvidDynamicStart)

/-- The dynamic ids that no driver of the list has. -/
def freeDriverIds (drvIds : List ℤ) : Set ℤ :=
  {id | bioDrvidDynamicStart ≤ id ∧ id ≤ bioDrvidDynamicMax ∧ id ∉ drvIds}

theorem mem_dynamicPlaces {drvIds : List ℤ} {i : ℤ} (hi : 0 ≤ i) :
    i ∈ dynamicPlaces drvIds ↔ i + bioDrvidDynamicStart ∈ drvIds := by
  simp only [dynamicPlaces, List.mem_map, List.mem_filter, decide_eq_true_eq]
  constructor
  · rintro ⟨id, ⟨hid, -⟩, rfl⟩
    rwa [Int.sub_add_cancel]
  · exact fun hid => ⟨i + bioDrvidDynamicStart, ⟨hid, by omega⟩, Int.add_sub_cancel _ _⟩

theorem marks_drvIdList : FlagTable.Marks dynamicIds ∅ (List.replicate dynamicIds false) where
  length := by rw [List.length_replicate]
  flag i hi := by simp

/-- The function on a list whose ids have a place in the table. -/
theorem bioGetEmptyDriverIdTable_cases {drvIds : List ℤ}
    (hids : ∀ id ∈ drvIds, id ≤ bioDrvidDynamicMax) :
    (∃ id, bioGetEmptyDriverIdTable drvIds = some id ∧ IsLeast (freeDriverIds drvIds) id) ∨
      bioGetEmptyDriverIdTable drvIds = none ∧ freeDriverIds drvIds = ∅ := by
  have hsize : (dynamicIds : ℤ) + bioDrvidDynamicStart = bioDrvidDynamicMax + 1 := by decide
  have hplaces : ∀ i ∈ dynamicPlaces drvIds, 0 ≤ i ∧ i < dynamicIds := by
    intro i hi
    obtain ⟨id, hid, rfl⟩ := List.mem_map.mp hi
    obtain ⟨hmem, hdynamic⟩ := List.mem_filter.mp hid
    have := hids id hmem
    have := of_decide_eq_true hdynamic
    omega
  cases marks_drvIdList.markAll (dynamicPlaces drvIds) with
  | inr hout =>
    -- every id has a place, so marking them does not fail
    obtain ⟨⟨i, hi, hbounds⟩, -⟩ := hout
    exact absurd (hplaces i hi) hbounds
  | inl hall =>
    obtain ⟨-, drvIdList, hmarkAll, hmarks⟩ := hall
    rw [Set.empty_union] at hmarks
    have hscan := hmarks.scan dynamicIds (le_refl 0) (by omega)
    rw [zero_add] at hscan
    unfold bioGetEmptyDriverIdTable
    simp only [hmarkAll, Option.bind_eq_bind, Option.bind_some]
    cases hscan with
    | inl hfound =>
      -- the loop breaks at the first place without a mark
      obtain ⟨i, hi, ⟨hpos, hlt, hfree⟩, hleast⟩ := hfound
      obtain ⟨flag, hget, hflag⟩ := hmarks.get? hpos hlt
      have hunmarked : flag = false := by
        rw [← Bool.not_eq_true, hflag]
        exact hfree
      refine .inl ⟨i + bioDrvidDynamicStart, ?_, ⟨by omega, by omega, ?_⟩, fun id hid => ?_⟩
      · rw [hi, Option.bind_some, Option.getD_some, hget, hunmarked]
        rfl
      · exact fun hmem => hfree ((mem_dynamicPlaces hpos).mpr hmem)
      · -- a smaller free id would be a smaller place without a mark
        obtain ⟨hlower, hupper, hnot⟩ := hid
        have hplace : i ≤ id - bioDrvidDynamicStart := by
          refine hleast ⟨by omega, by omega, fun hmem => hnot ?_⟩
          have := (mem_dynamicPlaces (by omega)).mp hmem
          rwa [Int.sub_add_cancel] at this
        omega
    | inr hfull =>
      -- no place is free: the table ends before the loop does
      obtain ⟨hnone, htaken⟩ := hfull
      refine .inr ⟨?_, Set.eq_empty_of_forall_notMem fun id hid => ?_⟩
      · -- after the loop `i` is the size of the table, and `drv_id_list[i]` lies behind it
        have hbehind : FlagTable.get? drvIdList (dynamicIds : ℤ) = none := by
          have hlength := hmarks.length
          unfold FlagTable.get?
          rw [if_pos (Int.natCast_nonneg _), List.getElem?_eq_none (by omega)]
        rw [hnone, Option.bind_some, Option.getD_none, hbehind, Option.bind_none]
      · obtain ⟨hlower, hupper, hnot⟩ := hid
        refine hnot ?_
        have := (mem_dynamicPlaces (by omega)).mp
          (htaken (id - bioDrvidDynamicStart) (by omega) (by omega))
        rwa [Int.sub_add_cancel] at this

/-- In bounds the function is `bioGetEmptyDriverId`, whatever lies behind the table. -/
theorem bioGetEmptyDriverId_of_table {drvIds : List ℤ}
    (hids : ∀ id ∈ drvIds, id ≤ bioDrvidDynamicMax) {id : ℤ}
    (h : bioGetEmptyDriverIdTable drvIds = some id) (past : Bool) :
    bioGetEmptyDriverId past drvIds = id := by
  have hsize : (dynamicIds : ℤ) + bioDrvidDynamicStart = bioDrvidDynamicMax + 1 := by decide
  cases bioGetEmptyDriverIdTable_cases hids with
  | inr hfull => cases h.symm.trans hfull.1
  | inl hfree =>
    obtain ⟨id', hid', ⟨hlower, hupper, hnot⟩, hleast⟩ := hfree
    obtain rfl := Option.some.inj (h.symm.trans hid')
    have hplace : ((id - bioDrvidDynamicStart).toNat : ℤ) + bioDrvidDynamicStart = id := by omega
    have hfind : (List.range dynamicIds).find?
        (fun i : ℕ => (i + bioDrvidDynamicStart : ℤ) ∉ drvIds) =
          some (id - bioDrvidDynamicStart).toNat := by
      rw [List.find?_range_eq_some]
      refine ⟨decide_eq_true (by rwa [hplace]), List.mem_range.mpr (by omega), fun j hj => ?_⟩
      -- a smaller place is taken, as `id` is the least free id
      by_contra hj'
      have hle := hleast (a := (j + bioDrvidDynamicStart : ℤ))
        ⟨by omega, by omega, by simpa using hj'⟩
      omega
    unfold bioGetEmptyDriverId
    rw [hfind]
    exact hplace

/-! ### `bio_driver_list_init` -/

/-- `BIO_DRV_API_VERSION_MAJOR`, `BIO_DRV_API_VERSION_MINOR` and `BIO_DRV_API_VERSION_FUNC`. -/
def bioDrvApiVersion : ℤ × ℤ × ℤ := (0, 10, 2)

/-- `bio_check_drv_api_version`. -/
def bioCheckDrvApiVersion (major minor function : ℤ) : ℤ :=
  if bioDrvApiVersion.1 < major then 3
  else if major < bioDrvApiVersion.1 then -3
  else if bioDrvApiVersion.2.1 < minor then 2
  else if minor < bioDrvApiVersion.2.1 then -2
  else if bioDrvApiVersion.2.2 < function then 1
  else 0

/-- The shared object of a driver. -/
structure Plugin where
  /-- The device as `ops_configure` fills it in, without its id. -/
  dev : BioDev
  /-- The id the driver has of its own; without one it asks `bio_get_empty_driver_id`. -/
  staticId : Option (Fin bioDrvidDynamicStart)
  /-- What `ops_configure` returns. -/
  configured : ℤ
  /-- `drv_api_version`. -/
  drvApiVersion : ℤ × ℤ × ℤ
  /-- What `ops_driver_init` returns. -/
  initialised : ℤ

namespace Plugin

/-- The driver asks for its id. -/
def asks (p : Plugin) : Bool := p.staticId.isNone

/-- What `ops_configure` sets `driver_id` to, with `drvIds` loaded. -/
def configureId (p : Plugin) (drvIds : List ℤ) : Option ℤ :=
  match p.staticId with
  | some id => some id
  | none => bioGetEmptyDriverIdTable drvIds

/-- `bio_check_drv_api_version` for the driver. -/
def versionCheck (p : Plugin) : ℤ :=
  bioCheckDrvApiVersion p.drvApiVersion.1 p.drvApiVersion.2.1 p.drvApiVersion.2.2

/-- The driver is not dropped after `ops_configure`. -/
def loads (p : Plugin) : Bool :=
  decide (p.configured = 0 ∧ p.versionCheck = 0 ∧ 0 ≤ p.initialised)

/-- The device that is appended to `bio_drv_list`. -/
def toDev (p : Plugin) (isEnable : String → Bool) (id : ℤ) : BioDev :=
  { (((p.dev.setDevStatus devsCommIdle).setOpsResult opsCommSuccess).setNotifyMid 0) with
    driverId := id
    enable := isEnable p.dev.deviceName }

end Plugin

/-- A group of the configuration: its name, and the value of its key `Driver`, if it has one. -/
structure ConfGroup where
  name : String
  driver : Option String

section Load

variable (dlopen : String → Option Plugin) (isEnable : String → Bool)

/-- The loop of `bio_driver_list_init`, with what has been loaded; a group without a driver ends
it with the empty list. `none` when an allocation gets out of its table. -/
def driverListLoop : List ConfGroup → List BioDev → Option (List BioDev)
  | [], drvList => some drvList
  | group :: groups, drvList =>
    if group.name = "" then driverListLoop groups drvList
    else
      match group.driver with
      | none => some []
      | some path =>
        if path = "" then some []
        else
          match dlopen path with
          | none => driverListLoop groups drvList
          | some p => do
            let id ← p.configureId (drvList.map BioDev.driverId)
            if p.configured ≠ 0 then driverListLoop groups drvList
            else if p.versionCheck ≠ 0 then driverListLoop groups drvList
            else if p.initialised < 0 then driverListLoop groups drvList
            else driverListLoop groups (drvList ++ [p.toDev isEnable id])

/-- `bio_driver_list_init`, with a configuration, up to the registration of the hotplug callbacks
(`DeviceLists.registered`). A registration that fails is only told of in a message. -/
def bioDriverListInit (groups : List ConfGroup) : Option (List BioDev) :=
  driverListLoop dlopen isEnable groups []

/-- The drivers whose `ops_configure` is called, in order. -/
def configuredPlugins : List ConfGroup → List Plugin
  | [] => []
  | group :: groups =>
    if group.name = "" then configuredPlugins groups
    else if group.driver.getD "" = "" then []
    else (dlopen (group.driver.getD "")).toList ++ configuredPlugins groups

/-- No group lacks its driver. -/
def NamesDrivers (groups : List ConfGroup) : Prop :=
  ∀ group ∈ groups, group.name ≠ "" → group.driver.getD "" ≠ ""

end Load

/-- The ids of drivers loaded one after another, when `n` dynamic ids have been given out. -/
def assignedIds : ℕ → List Plugin → List ℤ
  | _, [] => []
  | n, p :: ps =>
    match p.staticId with
    | some id => (id : ℤ) :: assignedIds n ps
    | none => (bioDrvidDynamicStart + n : ℤ) :: assignedIds (n + 1) ps

/-- The static ids of drivers. -/
def staticIds (ps : List Plugin) : List (Fin bioDrvidDynamicStart) :=
  ps.filterMap Plugin.staticId

/-- Whenever a driver asks for its id, with `n` dynamic ids given out before the first, there is
one left. -/
def AsksInTime (n : ℕ) (ps : List Plugin) : Prop :=
  ∀ before p after, ps = before ++ p :: after → p.asks = true →
    n + before.countP (fun q => q.loads && q.asks) < dynamicIds

theorem asksInTime_cons {n : ℕ} {p : Plugin} {ps : List Plugin} :
    AsksInTime n (p :: ps) ↔ (p.asks = true → n < dynamicIds) ∧
      AsksInTime (n + if p.loads && p.asks then 1 else 0) ps := by
  constructor
  · intro h
    refine ⟨fun hp => by simpa using h [] p ps rfl hp, fun before q after heq hq => ?_⟩
    have := h (p :: before) q after (by rw [heq]; rfl) hq
    rw [List.countP_cons] at this
    omega
  · rintro ⟨hp, hps⟩ before q after heq hq
    cases before with
    | nil =>
      obtain ⟨rfl, -⟩ := List.cons.inj heq
      simpa using hp hq
    | cons p' before =>
      obtain ⟨rfl, rfl⟩ := List.cons.inj heq
      have := hps before q after rfl hq
      rw [List.countP_cons]
      omega

/-! ### The ids of loaded drivers -/

theorem assignedIds_append (n : ℕ) (ps ps' : List Plugin) :
    assignedIds n (ps ++ ps') =
      assignedIds n ps ++ assignedIds (n + ps.countP Plugin.asks) ps' := by
  induction ps generalizing n with
  | nil => simp [assignedIds]
  | cons p ps ih =>
    cases hp : p.staticId with
    | some id => simp [assignedIds, hp, ih, Plugin.asks]
    | none =>
      simp only [List.cons_append, assignedIds, hp, ih, Plugin.asks, List.countP_cons,
        Option.isNone_none, if_true]
      rw [Nat.add_right_comm]
      rfl

theorem mem_assignedIds {n : ℕ} {ps : List Plugin} {id : ℤ} :
    id ∈ assignedIds n ps ↔ (∃ i ∈ staticIds ps, (i : ℤ) = id) ∨
      bioDrvidDynamicStart + n ≤ id ∧ id < bioDrvidDynamicStart + n + ps.countP Plugin.asks := by
  induction ps generalizing n with
  | nil => simp [assignedIds, staticIds]
  | cons p ps ih =>
    cases hp : p.staticId with
    | some i =>
      -- a static id: it joins the static ones, and the dynamic range is the same
      simp only [assignedIds, hp, List.mem_cons, ih, staticIds, List.filterMap_cons,
        exists_eq_or_imp, or_assoc, Plugin.asks, List.countP_cons, Option.isNone_some]
      simp [eq_comm]
    | none =>
      -- an id is asked for: it is the least of the dynamic range
      simp only [assignedIds, hp, List.mem_cons, ih, staticIds, List.filterMap_cons,
        Plugin.asks, List.countP_cons, Option.isNone_none, if_true]
      push_cast
      constructor
      · rintro (rfl | hstatic | hrange)
        · exact .inr ⟨le_refl _, by omega⟩
        · exact .inl hstatic
        · exact .inr ⟨by omega, by omega⟩
      · rintro (hstatic | hrange)
        · exact .inr (.inl hstatic)
        · by_cases heq : id = bioDrvidDynamicStart + n
          · exact .inl heq
          · exact .inr (.inr ⟨by omega, by omega⟩)

/-- The dynamic ids are distinct, and none of them is static. -/
theorem nodup_assignedIds (n : ℕ) (ps : List Plugin) :
    (assignedIds n ps).Nodup ↔ (staticIds ps).Nodup := by
  induction ps generalizing n with
  | nil => simp [assignedIds, staticIds]
  | cons p ps ih =>
    cases hp : p.staticId with
    | some i =>
      -- a static id lies below the dynamic ones, so it can only repeat a static one
      have hstatic : (i : ℤ) < bioDrvidDynamicStart := by exact_mod_cast i.isLt
      simp only [assignedIds, hp, staticIds, List.filterMap_cons, List.nodup_cons]
      rw [ih, mem_assignedIds]
      refine and_congr_left fun _ => not_congr ?_
      constructor
      · rintro (⟨j, hj, hji⟩ | hrange)
        · have : j = i := Fin.ext (by exact_mod_cast hji)
          exact this ▸ hj
        · omega
      · exact fun hi => .inl ⟨i, hi, rfl⟩
    | none =>
      -- a dynamic id repeats none: neither a static one, which is smaller, nor a later one
      simp only [assignedIds, hp, staticIds, List.filterMap_cons, List.nodup_cons]
      rw [ih, mem_assignedIds]
      refine and_iff_right ?_
      rintro (⟨j, -, hj⟩ | hrange)
      · have := j.isLt
        omega
      · push_cast at hrange
        omega

/-- One driver: it gets the next dynamic id if it asks, as long as one is left. -/
theorem configureId_assigned {loaded : List Plugin}
    (hcount : loaded.countP Plugin.asks ≤ dynamicIds) (p : Plugin) :
    ((p.asks = true → loaded.countP Plugin.asks < dynamicIds) ∧
        ∃ id, p.configureId (assignedIds 0 loaded) = some id ∧
          assignedIds 0 (loaded ++ [p]) = assignedIds 0 loaded ++ [id]) ∨
      (p.asks = true ∧ loaded.countP Plugin.asks = dynamicIds) ∧
        p.configureId (assignedIds 0 loaded) = none := by
  have hsize : (dynamicIds : ℤ) + bioDrvidDynamicStart = bioDrvidDynamicMax + 1 := by decide
  -- the dynamic ids that are taken are those up to the number of drivers that have asked
  have hmem : ∀ id : ℤ, (bioDrvidDynamicStart : ℤ) ≤ id → (id ∈ assignedIds 0 loaded ↔
      id < bioDrvidDynamicStart + loaded.countP Plugin.asks) := by
    intro id hid
    rw [mem_assignedIds, Nat.cast_zero, add_zero, and_iff_right hid]
    refine or_iff_right ?_
    rintro ⟨i, -, rfl⟩
    have := i.isLt
    omega
  have happend := assignedIds_append 0 loaded [p]
  rw [Nat.zero_add] at happend
  -- the driver has its own id
  cases hp : p.staticId with
  | some id =>
    have hasks : ¬ p.asks = true := by simp [Plugin.asks, hp]
    refine .inl ⟨fun h => absurd h hasks, id, by rw [Plugin.configureId, hp], ?_⟩
    rw [happend, assignedIds, hp, assignedIds]
  | none =>
    -- it asks for one, and the table has a place for every id given so far
    have hasks : p.asks = true := by simp [Plugin.asks, hp]
    have hids : ∀ id ∈ assignedIds 0 loaded, id ≤ bioDrvidDynamicMax := by
      intro id hid
      by_cases hlower : (bioDrvidDynamicStart : ℤ) ≤ id
      · have := (hmem id hlower).mp hid
        omega
      · omega
    unfold Plugin.configureId
    rw [hp]
    cases bioGetEmptyDriverIdTable_cases hids with
    | inl hfree =>
      obtain ⟨id, hid, ⟨hlower, hupper, hnot⟩, hleast⟩ := hfree
      have hge := mt (hmem id hlower).mpr hnot
      have hlt : loaded.countP Plugin.asks < dynamicIds := by omega
      -- the id behind the ones given out is free, and no smaller one is
      have hnext := hleast (a := (bioDrvidDynamicStart + loaded.countP Plugin.asks : ℤ))
        ⟨by omega, by omega, fun h => by have := (hmem _ (by omega)).mp h; omega⟩
      refine .inl ⟨fun _ => hlt, id, hid, ?_⟩
      have heq : id = bioDrvidDynamicStart + loaded.countP Plugin.asks := by omega
      simp only [happend, assignedIds, hp, heq]
    | inr hfull =>
      -- all are given away
      obtain ⟨hnone, hempty⟩ := hfull
      refine .inr ⟨⟨hasks, ?_⟩, hnone⟩
      by_contra hne
      have hfree : (bioDrvidDynamicStart + loaded.countP Plugin.asks : ℤ) ∈
          freeDriverIds (assignedIds 0 loaded) :=
        ⟨by omega, by omega, fun h => by have := (hmem _ (by omega)).mp h; omega⟩
      rw [hempty] at hfree
      exact hfree

/-! ### Runs -/

section Run

variable {dlopen : String → Option Plugin} {isEnable : String → Bool}

/-- A driver, and the groups after it. -/
theorem driverListLoop_plugin {group : ConfGroup} {groups : List ConfGroup} {drvList : List BioDev}
    {p : Plugin} (hname : group.name ≠ "") (hdriver : group.driver.getD "" ≠ "")
    (hp : dlopen (group.driver.getD "") = some p) :
    driverListLoop dlopen isEnable (group :: groups) drvList =
      (p.configureId (drvList.map BioDev.driverId)).bind fun id =>
        driverListLoop dlopen isEnable groups
          (if p.loads = true then drvList ++ [p.toDev isEnable id] else drvList) := by
  cases hpath : group.driver with
  | none => exact absurd (by rw [hpath]; rfl) hdriver
  | some path =>
    rw [hpath, Option.getD_some] at hdriver hp
    rw [driverListLoop, if_neg hname]
    simp only [hpath, if_neg hdriver, hp, Option.bind_eq_bind]
    congr 1
    funext id
    -- the three tests are those of `loads`
    by_cases hconfigured : p.configured = 0
    · rw [if_neg (not_not.mpr hconfigured)]
      by_cases hversion : p.versionCheck = 0
      · rw [if_neg (not_not.mpr hversion)]
        by_cases hinit : p.initialised < 0
        · rw [if_pos hinit, if_neg (by simp [Plugin.loads, hinit])]
        · rw [if_neg hinit, if_pos (by simp [Plugin.loads, hconfigured, hversion, not_lt.mp hinit])]
      · rw [if_pos hversion, if_neg (by simp [Plugin.loads, hversion])]
    · rw [if_pos hconfigured, if_neg (by simp [Plugin.loads, hconfigured])]

/-- A group without a driver ends the loop, and nothing is left of the list. -/
theorem driverListLoop_of_no_driver {group : ConfGroup} {groups : List ConfGroup}
    {drvList : List BioDev} (hname : group.name ≠ "") (hdriver : group.driver.getD "" = "") :
    driverListLoop dlopen isEnable (group :: groups) drvList = some [] := by
  unfold driverListLoop
  rw [if_neg hname]
  cases hpath : group.driver with
  | none => rfl
  | some path =>
    rw [hpath, Option.getD_some] at hdriver
    exact if_pos hdriver

/-- A group whose driver cannot be loaded is passed over. -/
theorem driverListLoop_of_no_plugin {group : ConfGroup} {groups : List ConfGroup}
    {drvList : List BioDev} (hname : group.name ≠ "") (hdriver : group.driver.getD "" ≠ "")
    (hp : dlopen (group.driver.getD "") = none) :
    driverListLoop dlopen isEnable (group :: groups) drvList =
      driverListLoop dlopen isEnable groups drvList := by
  cases hpath : group.driver with
  | none => exact absurd (by rw [hpath]; rfl) hdriver
  | some path =>
    rw [hpath, Option.getD_some] at hdriver hp
    rw [driverListLoop, if_neg hname]
    simp only [hpath, if_neg hdriver, hp]

theorem namesDrivers_cons {group : ConfGroup} {groups : List ConfGroup} :
    NamesDrivers (group :: groups) ↔
      (group.name ≠ "" → group.driver.getD "" ≠ "") ∧ NamesDrivers groups :=
  List.forall_mem_cons

variable (dlopen isEnable) in
/-- **Run lemma.** The drivers loaded by a run over some groups have the ids assigned to them one
after another, unless a driver asks when none is left. -/
theorem driverListLoop_run {loaded : List Plugin} {drvList : List BioDev}
    (hids : drvList.map BioDev.driverId = assignedIds 0 loaded)
    (hcount : loaded.countP Plugin.asks ≤ dynamicIds) (groups : List ConfGroup) :
    (AsksInTime (loaded.countP Plugin.asks) (configuredPlugins dlopen groups) ∧
        ∃ drvList', driverListLoop dlopen isEnable groups drvList = some drvList' ∧
          (NamesDrivers groups → drvList'.map BioDev.driverId =
            assignedIds 0 (loaded ++ (configuredPlugins dlopen groups).filter Plugin.loads)) ∧
          (¬ NamesDrivers groups → drvList' = [])) ∨
      ¬ AsksInTime (loaded.countP Plugin.asks) (configuredPlugins dlopen groups) ∧
        driverListLoop dlopen isEnable groups drvList = none := by
  have hnone (n : ℕ) : AsksInTime n [] := by
    intro before p after heq
    simp at heq
  -- by induction on the groups, with the drivers that have been loaded by then
  induction groups generalizing loaded drvList with
  | nil =>
    refine .inl ⟨hnone _, drvList, rfl, fun _ => ?_, fun h => ?_⟩
    · rw [hids, configuredPlugins, List.filter_nil, List.append_nil]
    · exact absurd (fun group hgroup => by cases hgroup) h
  | cons group groups ih =>
    rw [namesDrivers_cons]
    by_cases hname : group.name = ""
    · -- a group without a name is passed over
      rw [and_iff_right fun h => absurd hname h, driverListLoop, if_pos hname, configuredPlugins,
        if_pos hname]
      exact ih hids hcount
    by_cases hdriver : group.driver.getD "" = ""
    · -- a group that names no driver: the list is given up
      rw [driverListLoop_of_no_driver hname hdriver, configuredPlugins, if_neg hname,
        if_pos hdriver]
      exact .inl ⟨hnone _, [], rfl, fun h => absurd hdriver (h.1 hname), fun _ => rfl⟩
    rw [and_iff_right fun _ => hdriver, configuredPlugins, if_neg hname, if_neg hdriver]
    cases hp : dlopen (group.driver.getD "") with
    | none =>
      -- the library cannot be opened, and the driver is passed over
      rw [driverListLoop_of_no_plugin hname hdriver hp]
      exact ih hids hcount
    | some p =>
      rw [driverListLoop_plugin hname hdriver hp, hids, Option.toList_some, List.singleton_append,
        asksInTime_cons]
      cases configureId_assigned hcount p with
      | inr hlate =>
        -- it asks when none is left: the loop crashes
        obtain ⟨⟨hasks, hfull⟩, hid⟩ := hlate
        refine .inr ⟨fun h => ?_, by rw [hid]; rfl⟩
        have := h.1 hasks
        omega
      | inl htime =>
        -- it gets its id
        obtain ⟨hlt, id, hid, happend⟩ := htime
        rw [hid, Option.bind_some, and_iff_right hlt]
        -- it loads, and is the next of the list
        by_cases hloads : p.loads = true
        · have hids' : (drvList ++ [p.toDev isEnable id]).map BioDev.driverId =
              assignedIds 0 (loaded ++ [p]) := by
            rw [happend, List.map_append, hids]
            rfl
          have hcount' : (loaded ++ [p]).countP Plugin.asks =
              loaded.countP Plugin.asks + if p.loads && p.asks then 1 else 0 := by
            rw [List.countP_append, List.countP_singleton, hloads, Bool.true_and]
          have hnext := ih hids' (by rw [hcount']; split <;> simp_all)
          rw [hcount'] at hnext
          rw [if_pos hloads, List.filter_cons_of_pos hloads,
            List.append_cons loaded p]
          exact hnext
        · -- its id is given to the next that asks
          have hsame : loaded.countP Plugin.asks + (if p.loads && p.asks then 1 else 0) =
              loaded.countP Plugin.asks := by
            simp [hloads]
          rw [if_neg hloads, List.filter_cons_of_neg hloads, hsame]
          exact ih hids hcount

end Run

/-! ### When ids are least and distinct -/

/-- What is asked of the allocation: the least free dynamic id, `-1` exactly if there is none, and
no access out of bounds. -/
def AllocatesLeast (drvIds : List ℤ) : Prop :=
  ∃ id, bioGetEmptyDriverIdTable drvIds = some id ∧
    (IsLeast (freeDriverIds drvIds) id ∨ id = -1 ∧ freeDriverIds drvIds = ∅)

/-- What is asked of the loading: a driver list with distinct ids. -/
def LoadsDistinct (dlopen : String → Option Plugin) (isEnable : String → Bool)
    (groups : List ConfGroup) : Prop :=
  ∃ drvList, bioDriverListInit dlopen isEnable groups = some drvList ∧
    (drvList.map BioDev.driverId).Nodup

theorem allocatesLeast_iff {drvIds : List ℤ} (hids : ∀ id ∈ drvIds, id ≤ bioDrvidDynamicMax) :
    AllocatesLeast drvIds ↔ (freeDriverIds drvIds).Nonempty := by
  cases bioGetEmptyDriverIdTable_cases hids with
  | inl hfree =>
    obtain ⟨id, hid, hleast⟩ := hfree
    exact iff_of_true ⟨id, hid, .inl hleast⟩ ⟨id, hleast.1⟩
  | inr hfull =>
    refine iff_of_false ?_ fun h => h.ne_empty hfull.2
    rintro ⟨id, hid, -⟩
    cases hfull.1.symm.trans hid

theorem loadsDistinct_iff (dlopen : String → Option Plugin) (isEnable : String → Bool)
    (groups : List ConfGroup) : LoadsDistinct dlopen isEnable groups ↔
      AsksInTime 0 (configuredPlugins dlopen groups) ∧ (NamesDrivers groups →
        (staticIds ((configuredPlugins dlopen groups).filter Plugin.loads)).Nodup) := by
  unfold LoadsDistinct bioDriverListInit
  have hrun := driverListLoop_run dlopen isEnable
    (show ([] : List BioDev).map BioDev.driverId = assignedIds 0 [] from rfl) (Nat.zero_le _) groups
  rw [List.countP_nil, List.nil_append] at hrun
  cases hrun with
  | inr hlate =>
    refine iff_of_false ?_ fun h => hlate.1 h.1
    rintro ⟨drvList, hlist, -⟩
    cases hlate.2.symm.trans hlist
  | inl htime =>
    obtain ⟨hasks, drvList, hlist, hnames, hkeyless⟩ := htime
    rw [and_iff_right hasks, hlist]
    by_cases h : NamesDrivers groups
    · simp only [Option.some.injEq, exists_eq_left', hnames h, nodup_assignedIds, h, true_imp_iff]
    · refine iff_of_true ⟨drvList, rfl, ?_⟩ fun h' => absurd h' h
      rw [hkeyless h]
      exact List.nodup_nil

/-- **Driver ids.** The allocation gives the least free id, and the drivers that are loaded have
distinct ids, exactly if a dynamic id is free, whenever a driver asks for one there is one left,
and the loaded drivers with ids of their own differ in them. -/
theorem driverIds_distinct_iff (drvIds : List ℤ)
    (hids : ∀ id ∈ drvIds, 0 ≤ id ∧ id ≤ bioDrvidDynamicMax) (dlopen : String → Option Plugin)
    (isEnable : String → Bool) (groups : List ConfGroup) :
    AllocatesLeast drvIds ∧ LoadsDistinct dlopen isEnable groups ↔
      (freeDriverIds drvIds).Nonempty ∧ AsksInTime 0 (configuredPlugins dlopen groups) ∧
        (NamesDrivers groups →
          (staticIds ((configuredPlugins dlopen groups).filter Plugin.loads)).Nodup) := by
  rw [allocatesLeast_iff fun id hid => (hids id hid).2, loadsDistinct_iff]

/-- All dynamic ids are taken, and the table is read behind its end. -/
theorem not_driverIds_distinct : ¬ ∀ drvIds : List ℤ,
    (∀ id ∈ drvIds, 0 ≤ id ∧ id ≤ bioDrvidDynamicMax) →
      ∀ (dlopen : String → Option Plugin) (isEnable : String → Bool) (groups : List ConfGroup),
        AllocatesLeast drvIds ∧ LoadsDistinct dlopen isEnable groups := by
  intro h
  have hsize : (dynamicIds : ℤ) + bioDrvidDynamicStart = bioDrvidDynamicMax + 1 := by decide
  have hids : ∀ id ∈ (List.range dynamicIds).map fun i : ℕ => (i + bioDrvidDynamicStart : ℤ),
      0 ≤ id ∧ id ≤ bioDrvidDynamicMax := by
    intro id hid
    obtain ⟨i, hi, rfl⟩ := List.mem_map.mp hid
    have := List.mem_range.mp hi
    omega
  have hfree := (allocatesLeast_iff fun id hid => (hids id hid).2).mp
    (h _ hids (fun _ => none) (fun _ => true) []).1
  obtain ⟨id, hlower, hupper, hnot⟩ := hfree
  refine hnot (List.mem_map.mpr ⟨(id - bioDrvidDynamicStart).toNat, ?_, by omega⟩)
  exact List.mem_range.mpr (by omega)

/-- A driver that asks for its id. -/
def uru4000Plugin : Plugin :=
  { dev := idleReader, staticId := none, configured := 0, drvApiVersion := (0, 10, 2),
    initialised := 0 }

/-- Two such drivers. -/
theorem driverIds_distinct_two :
    AllocatesLeast [7, 100] ∧ LoadsDistinct (fun _ => some uru4000Plugin) (fun _ => true)
      [⟨"uru4000", some "uru4000.so"⟩, ⟨"uru4500", some "uru4500.so"⟩] := by
  refine (driverIds_distinct_iff [7, 100] (by decide) _ _ _).mpr
    ⟨⟨101, by decide, by decide, by decide⟩, ?_, ?_⟩
  · have hplugins : configuredPlugins (fun _ => some uru4000Plugin)
        [⟨"uru4000", some "uru4000.so"⟩, ⟨"uru4500", some "uru4500.so"⟩] =
          [uru4000Plugin, uru4000Plugin] := rfl
    rw [hplugins, asksInTime_cons, asksInTime_cons]
    refine ⟨by decide, by decide, fun before p after heq => ?_⟩
    simp at heq
  · exact fun _ => List.nodup_nil

end BiometricAuth
