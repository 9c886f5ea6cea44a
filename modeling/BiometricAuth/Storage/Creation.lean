import BiometricAuth.Storage.Migration

/-!
# Creating the database

`bio_sto_connect_db` creates the tables if, and only if, it has found no file. It creates the
file, `EIGEN_INFO`, `DATABASE_FORMAT` and the version row one after the other, each committed by
itself, so that a first call that fails or is killed leaves a part of them. The next `bio_init`
finds a file, and leaves the rest to the upgrade: a database without a version row is taken for
one of format 0.0.0.

Main result: `recovers_iff` — `bio_init` recovers from every such stop but one.
-/

namespace BiometricAuth

open Transaction

/-! ### The calls -/

/-- Which calls of `bio_sto_connect_db` fail, or are not made because the process has been killed
before. -/
structure ConnectCalls where
  /-- The `sqlite3_open_v2` that creates the file. -/
  createFile : Bool
  /-- The `sqlite3_open_v2` of the connection. -/
  connect : Bool
  eigenInfo : Bool
  format : FormatCalls

/-- Which calls of `bio_init` fail. -/
structure InitCalls where
  /-- `bio_conf_init`. -/
  conf : Bool
  connect : ConnectCalls
  check : CheckCalls
  /-- `libusb_init`. -/
  libusb : Bool

/-- No call fails. -/
def InitCalls.succeed : InitCalls := ⟨false, ⟨false, false, false, .succeed⟩, .succeed, false⟩

/-- `bio_sto_create_table`. -/
def bioStoCreateTable (eigenInfo : Bool) (format : FormatCalls) : Script Database Unit := do
  internalCreateEigenInfoTable eigenInfo
  internalCreateDatebaseInfo format

/-- `bio_sto_connect_db`, with the file it leaves; `disk` is `none` where there is no file. -/
def bioStoConnectDb (calls : ConnectCalls) (disk : Option Database) :
    Option (Conn Database) × Option Database :=
  match disk with
  | none =>
    if calls.createFile then (none, none)
    else if calls.connect then (none, some .empty)
    else
      match Conn.perform (bioStoCreateTable calls.eigenInfo calls.format) ⟨.empty, none⟩ with
      | (some (), c) => (some c, some c.committed)
      | (none, c) => (none, some c.committed)
  | some d => if calls.connect then (none, some d) else (some ⟨d, none⟩, some d)

/-- `bio_init`. Without a connection the first call of the format check fails. -/
def bioInit (calls : InitCalls) (uuidOf : ℤ → String) (disk : Option Database) :
    ℤ × Option Database :=
  if calls.conf then (-1, disk)
  else
    match bioStoConnectDb calls.connect disk with
    | (none, disk') => (-1, disk')
    | (some c, _) =>
      let (ret, c') := bioStoCheckAndUpgradeDbFormat calls.check uuidOf c
      if ret ≠ 0 then (-1, some c'.committed)
      else if calls.libusb then (-1, some c'.committed)
      else (0, some c'.committed)

/-- A `bio_init` in which no call fails comes to a current database, which passes the check. -/
def Recovers (uuidOf : ℤ → String) (disk : Option Database) : Prop :=
  ∃ d, bioInit .succeed uuidOf disk = (0, some d) ∧ d.IsCurrent ∧
    (bioStoCheckAndUpgradeDbFormat .succeed uuidOf ⟨d, none⟩).1 = 0

/-! ### From where `bio_init` recovers -/

section Recovers

variable (uuidOf : ℤ → String) {d : Database}

/-- A current database passes the check as it is. -/
theorem check_of_isCurrent (h : d.IsCurrent) :
    bioStoCheckAndUpgradeDbFormat .succeed uuidOf ⟨d, none⟩ = (0, ⟨d, none⟩) := by
  obtain ⟨versions, hversions, hhead⟩ := Option.bind_eq_some_iff.mp h.version
  have hread : readFormat .succeed (⟨d, none⟩ : Conn Database).view = some currentVersion := by
    change readFormat .succeed d = some currentVersion
    rw [readFormat, hversions]
    change some (versions.head?.getD ⟨0, 0, 0⟩) = some currentVersion
    rw [hhead]
    rfl
  rw [bioStoCheckAndUpgradeDbFormat, hread]
  rfl

variable {uuidOf} in
/-- `bio_init` on a file that is there: the format check decides. -/
theorem bioInit_some {ret : ℤ} {c : Conn Database}
    (hcheck : bioStoCheckAndUpgradeDbFormat .succeed uuidOf ⟨d, none⟩ = (ret, c)) :
    bioInit .succeed uuidOf (some d) = (if ret = 0 then 0 else -1, some c.committed) := by
  have hconnect : bioStoConnectDb InitCalls.succeed.connect (some d) =
      (some ⟨d, none⟩, some d) := rfl
  have hcheck' : bioStoCheckAndUpgradeDbFormat InitCalls.succeed.check uuidOf ⟨d, none⟩ =
      (ret, c) := hcheck
  rw [bioInit, if_neg (show ¬ InitCalls.succeed.conf = true from Bool.false_ne_true), hconnect]
  simp only [hcheck']
  by_cases hret : ret = 0
  · rw [if_neg (not_not.mpr hret), if_pos hret]
    rfl
  · rw [if_pos hret, if_neg hret]

theorem recovers_of_isCurrent (h : d.IsCurrent) : Recovers uuidOf (some d) := by
  have hcheck := check_of_isCurrent uuidOf h
  exact ⟨d, bioInit_some hcheck, h, by rw [hcheck]⟩

variable {uuidOf} in
/-- On a database of format 0.0.0 the check is the upgrade. -/
theorem check_of_format000 {ret : ℤ} {c : Conn Database} (h000 : d.Format000)
    (hupgrade : internalUpgradeDbFormatFromNull .succeed uuidOf ⟨d, none⟩ = (ret, c)) :
    bioStoCheckAndUpgradeDbFormat .succeed uuidOf ⟨d, none⟩ =
      if ret < 0 then (-2, c) else (0, c) := by
  have hread : readFormat .succeed (⟨d, none⟩ : Conn Database).view = some ⟨0, 0, 0⟩ :=
    readFormat_of_format000 h000
  have hupgrade' : internalUpgradeDbFormatFromNull CheckCalls.succeed.upgrade uuidOf ⟨d, none⟩ =
      (ret, c) := hupgrade
  rw [bioStoCheckAndUpgradeDbFormat, hread]
  simp only [if_true, hupgrade']

/-- A database of format 0.0.0 is upgraded, if its uids are read back. -/
theorem recovers_of_renamable (h000 : d.Format000) (h : d.Renamable)
    (hints : ∀ uid ∈ d.uids, IsCInt uid) : Recovers uuidOf (some d) := by
  obtain ⟨t, ht⟩ := Option.isSome_iff_exists.mp h.1
  rw [Database.uids_eq ht] at hints
  obtain ⟨t', hformat', hrows', hupgrade⟩ :=
    internalUpgradeDbFormatFromNull_succeed uuidOf ht h.2
  rw [(map_setUuidIn_selectUids t).mpr fun r hr =>
    hints r.uid (EigenTable.mem_selectUids.mpr ⟨r, hr, rfl⟩)] at hrows'
  have hcurrent : (⟨some t', some t, some (d.databaseFormat.getD [] ++ [currentVersion])⟩ :
      Database).IsCurrent := by
    refine ⟨?_, t', rfl, hformat', fun r hr => ?_⟩
    · rw [h000]
      rfl
    · rw [hrows'] at hr
      obtain ⟨r', -, rfl⟩ := List.mem_map.mp hr
      exact Option.some_ne_none _
  have hcheck := check_of_isCurrent uuidOf hcurrent
  exact ⟨_, bioInit_some (check_of_format000 h000 hupgrade), hcurrent, congrArg Prod.fst hcheck⟩

/-- Without a table to rename the upgrade fails, and so does `bio_init`. -/
theorem not_recovers_of_not_renamable (h000 : d.Format000) (h : ¬ d.Renamable) :
    ¬ Recovers uuidOf (some d) := by
  rintro ⟨d', hinit, -⟩
  have hnone : (upgradeScript .succeed uuidOf).run d = (none, d) :=
    upgradeScript_of_not fun hpast => h hpast.1
  have hupgrade : internalUpgradeDbFormatFromNull .succeed uuidOf ⟨d, none⟩ =
      (-1, ⟨d, none⟩) := by
    have htransact : transact UpgradeCalls.succeed.begin UpgradeCalls.succeed.commit
        UpgradeCalls.succeed.rollback (upgradeScript .succeed uuidOf) ⟨d, none⟩ =
          (none, ⟨d, none⟩) := by
      refine (transact_none _ d).trans ?_
      rw [hnone]
      rfl
    rw [internalUpgradeDbFormatFromNull, htransact]
  have hcheck : bioStoCheckAndUpgradeDbFormat .succeed uuidOf ⟨d, none⟩ = (-2, ⟨d, none⟩) :=
    check_of_format000 h000 hupgrade
  rw [bioInit_some hcheck] at hinit
  have hret : (-1 : ℤ) = 0 := congrArg Prod.fst hinit
  exact absurd hret (by decide)

end Recovers

/-! ### Where the first call can stop -/

section Stop

variable (calls : ConnectCalls) (uuidOf : ℤ → String)

/-- The tables of a new database, right after they have been created. -/
theorem isCurrent_created :
    (⟨some .empty, none, some [currentVersion]⟩ : Database).IsCurrent :=
  ⟨rfl, .empty, rfl, rfl, by simp [EigenTable.empty]⟩

/-- Once `EIGEN_INFO` is there, `bio_init` recovers, wherever the rest has stopped. -/
theorem recovers_of_eigenInfo (format : FormatCalls) :
    Recovers uuidOf (some ((bioStoCreateTable false format).run .empty).2) := by
  have hempty : Database.Renamable ⟨some .empty, none, none⟩ := ⟨rfl, rfl⟩
  have hversions : Database.Renamable ⟨some .empty, none, some []⟩ := ⟨rfl, rfl⟩
  obtain ⟨create, prepare, insert⟩ := format
  have hnone : ∀ uid ∈ ([] : List ℤ), IsCInt uid := List.forall_mem_nil _
  cases create with
  | true => exact recovers_of_renamable uuidOf rfl hempty hnone
  | false =>
    cases prepare with
    | true => exact recovers_of_renamable uuidOf rfl hversions hnone
    | false =>
      cases insert with
      | true => exact recovers_of_renamable uuidOf rfl hversions hnone
      | false => exact recovers_of_isCurrent uuidOf isCurrent_created

/-- The file that a first call leaves. -/
theorem bioStoConnectDb_none_snd :
    (bioStoConnectDb calls none).2 =
      if calls.createFile then none
      else if calls.connect ∨ calls.eigenInfo then some .empty
      else some ((bioStoCreateTable false calls.format).run .empty).2 := by
  have hperform (p : Script Database Unit) :
      Conn.perform p ⟨Database.empty, none⟩ = ((p.run .empty).1, ⟨(p.run .empty).2, none⟩) := rfl
  obtain ⟨createFile, connect, eigenInfo, format⟩ := calls
  rw [bioStoConnectDb]
  cases createFile with
  | true => rfl
  | false =>
    cases connect with
    | true => rfl
    | false =>
      rw [hperform]
      cases eigenInfo with
      | true => rfl
      | false =>
        simp only [Bool.false_eq_true, if_false, or_false]
        cases ((bioStoCreateTable false format).run .empty).1 <;> rfl

/-- **`bio_init` recovers from a first call that has not created the file, and from one that has
created `EIGEN_INFO`**; one that stops in between leaves a file that every later `bio_init` fails
on. -/
theorem recovers_iff :
    Recovers uuidOf (bioStoConnectDb calls none).2 ↔
      calls.createFile = true ∨ calls.connect = false ∧ calls.eigenInfo = false := by
  rw [bioStoConnectDb_none_snd]
  by_cases hfile : calls.createFile = true
  · -- there is no file, and `bio_init` creates it
    rw [if_pos hfile]
    refine iff_of_true ?_ (.inl hfile)
    exact ⟨_, rfl, isCurrent_created,
      congrArg Prod.fst (check_of_isCurrent uuidOf isCurrent_created)⟩
  · rw [if_neg hfile, or_iff_right hfile]
    by_cases hempty : calls.connect = true ∨ calls.eigenInfo = true
    · rw [if_pos hempty]
      refine iff_of_false (not_recovers_of_not_renamable uuidOf rfl nofun) fun h => ?_
      rcases hempty with hconnect | heigenInfo
      · exact Bool.false_ne_true (h.1.symm.trans hconnect)
      · exact Bool.false_ne_true (h.2.symm.trans heigenInfo)
    · rw [if_neg hempty]
      obtain ⟨hconnect, heigenInfo⟩ := not_or.mp hempty
      exact iff_of_true (recovers_of_eigenInfo uuidOf calls.format)
        ⟨Bool.eq_false_of_not_eq_true hconnect, Bool.eq_false_of_not_eq_true heigenInfo⟩

/-- Killed between the file and `EIGEN_INFO`. -/
theorem not_recovers_emptyFile :
    ¬ Recovers (fun _ => "") (bioStoConnectDb ⟨false, false, true, .succeed⟩ none).2 :=
  not_recovers_of_not_renamable _ rfl nofun

end Stop

end BiometricAuth
