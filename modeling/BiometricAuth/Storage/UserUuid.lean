import BiometricAuth.Lib.Uuid
import BiometricAuth.Storage.Directories
import BiometricAuth.Storage.ReaderSpec

/-!
# The UUID of a user

`internal_get_uuid_by_uid` of `biometric_storage.c`: the UUID is kept in the file
`.biometric_auth/UUID` of the home directory. A file that is missing or cannot be parsed is replaced
by a new UUID; a user without a home directory gets a default.

`none` is a crash: a file that does not open, or the overflow of `internal_create_dir`.

Main result: `uuidStable_iff` — a second call returns what the first one did exactly if the
directory exists or its path fits into the buffer of `internal_create_dir`.
-/

namespace BiometricAuth

variable {σ δ υ : Type}

/-! ### The function -/

/-- The bytes of a text of one-byte characters. -/
def asciiBytes (text : String) : Bytes := text.toList.map fun c => c.val.toUInt8

/-- `UUID_DEFAULT`. -/
def UUID_DEFAULT : Bytes := asciiBytes "01234567-0123-0123-0123-0123456789AB"

/-- `UUID_BUF_LEN` and `MAX_PATH_LEN`. -/
def UUID_BUF_LEN : ℕ := 37
def MAX_PATH_LEN : ℕ := 1024

/-- `user_conf_file` at first, and then: `snprintf` cuts off what does not fit. -/
def confDir (pwDir : Bytes) : Bytes :=
  (pwDir ++ asciiBytes "/.biometric_auth/").take (MAX_PATH_LEN - 1)
def confFile (pwDir : Bytes) : Bytes :=
  (pwDir ++ asciiBytes "/.biometric_auth/UUID").take (MAX_PATH_LEN - 1)

/-- What `fgets` reads: a line with its newline, and no more than `n` bytes. -/
def fgetsLine : ℕ → Bytes → Bytes
  | n + 1, b :: rest => if b = 10 then [b] else b :: fgetsLine n rest
  | _, _ => []

/-- `fgets` into `uuid_buf`; at the end of the file it is `NULL`. The buffer is used as a C
string. -/
def fgets (content : Bytes) : Option Bytes :=
  if content = [] then none
  else some ((fgetsLine (UUID_BUF_LEN - 1) content).takeWhile (· ≠ 0))

/-- The directory is created unless it exists. Whether that succeeds is not asked, and neither is
it for `chown`, which changes nothing that is read here. -/
def createConfDir (fs : FileSystem σ δ) (s : σ) (pwDir : Bytes) : Option σ :=
  if fs.access s (confDir pwDir) then some s
  else (internalCreateDir fs s (confDir pwDir)).map Prod.snd

/-- A new UUID, from the result of `uuid_generate`, and its file. -/
def newUuid (fs : FileSystem σ δ) (lib : UuidLibrary υ) (uu : υ) (s : σ) (pwDir : Bytes) :
    Option (Bytes × σ) := do
  let uuid := lib.unparseLower uu
  let s ← fs.write s (confFile pwDir) (uuid ++ [10])
  some (uuid, s)

/-- `internal_get_uuid_by_uid`, with the `pw_dir` of `getpwuid` and the result of
`uuid_generate`. -/
def internalGetUuidByUid (fs : FileSystem σ δ) (lib : UuidLibrary υ) (getpwuid : ℤ → Option Bytes)
    (generated : υ) (s : σ) (uid : ℤ) : Option (Bytes × σ) :=
  match getpwuid uid with
  | none => some (UUID_DEFAULT, s)
  | some pwDir =>
    if fs.access s pwDir then do
      let s ← createConfDir fs s pwDir
      if fs.access s (confFile pwDir) then do
        let content ← fs.read s (confFile pwDir)
        match (fgets content).bind lib.parse with
        | none => newUuid fs lib generated s pwDir
        | some uu => some (lib.unparseLower uu, s)
      else newUuid fs lib generated s pwDir
    else some (UUID_DEFAULT, s)

/-! ### Stability -/

/-- The UUID as the text of a row. -/
def uuidText (uuid : Bytes) : String := String.ofList (uuid.map fun b => Char.ofNat b.toNat)

/-- Two calls in a row: the second one returns the same and changes no file, so that a row that was
written with the first UUID is current under the second one. -/
def UuidStable (fs : FileSystem σ δ) (lib : UuidLibrary υ) (getpwuid : ℤ → Option Bytes) (s : σ)
    (uid : ℤ) : Prop :=
  ∀ generated generated', ∃ uuid s₁ uuid',
    internalGetUuidByUid fs lib getpwuid generated s uid = some (uuid, s₁) ∧
    internalGetUuidByUid fs lib getpwuid generated' s₁ uid = some (uuid', s₁) ∧ uuid' = uuid ∧
    ∀ (uuidOf : ℤ → String) (r : EigenRow), r.uid = uid → r.uuid = some (uuidText uuid) →
      uuidOf uid = uuidText uuid' → r.isCurrent uuidOf = true

/-- The file operations of the call succeed: with the directory there, the file can be read if it
exists, and written. -/
def ConfFileOpens (fs : FileSystem σ δ) (getpwuid : ℤ → Option Bytes) (s : σ) (uid : ℤ) : Prop :=
  ∀ pwDir s₁, getpwuid uid = some pwDir → createConfDir fs s pwDir = some s₁ →
    (fs.access s₁ (confFile pwDir) → (fs.read s₁ (confFile pwDir)).isSome) ∧
      ∀ b, (fs.write s₁ (confFile pwDir) b).isSome

/-- The directory of the user exists, or its path fits into the buffer of `internal_create_dir`. -/
def ConfDirFits (fs : FileSystem σ δ) (getpwuid : ℤ → Option Bytes) (s : σ) (uid : ℤ) : Prop :=
  ∀ pwDir, getpwuid uid = some pwDir → fs.access s pwDir → fs.access s (confDir pwDir) ∨
    (closedPath (confDir pwDir)).length < 256

/-! ### Reading a UUID back -/

theorem fgetsLine_of_no_newline {n : ℕ} {line : Bytes} (hlen : line.length = n)
    (hline : ∀ b ∈ line, 32 < b) (rest : Bytes) : fgetsLine n (line ++ rest) = line := by
  induction line generalizing n with
  | nil =>
    obtain rfl := hlen
    cases rest <;> rfl
  | cons b line ih =>
    obtain ⟨hb, hline⟩ := List.forall_mem_cons.mp hline
    have hne : b ≠ 10 := by
      rintro rfl
      exact absurd hb (by decide)
    obtain rfl := hlen
    rw [List.cons_append, List.length_cons, fgetsLine, if_neg hne, ih rfl hline]

/-- The first 36 bytes of the file are the UUID that was written. -/
theorem fgets_unparseLower {lib : UuidLibrary υ} (hlib : lib.Lawful) (u : υ) (rest : Bytes) :
    fgets (lib.unparseLower u ++ rest) = some (lib.unparseLower u) := by
  have hne : lib.unparseLower u ++ rest ≠ [] := by
    rw [← List.length_pos_iff, List.length_append, hlib.length_unparseLower]
    omega
  have hbuf : UUID_BUF_LEN - 1 = 36 := rfl
  have htext : (lib.unparseLower u).takeWhile (· ≠ 0) = lib.unparseLower u := by
    rw [List.takeWhile_eq_self_iff]
    intro b hb
    have hprintable := hlib.printable u b hb
    refine decide_eq_true ?_
    rintro rfl
    exact absurd hprintable (by decide)
  rw [fgets, if_neg hne, hbuf, fgetsLine_of_no_newline (hlib.length_unparseLower u)
    (hlib.printable u), htext]

/-! ### The directory -/

section Directory

variable {fs : FileSystem σ δ} {s s₁ : σ} {pwDir : Bytes}

theorem confDir_ne_nil (pwDir : Bytes) : confDir pwDir ≠ [] := by
  have hlen : (asciiBytes "/.biometric_auth/").length = 17 := by decide
  have hmax : MAX_PATH_LEN - 1 = 1023 := rfl
  unfold confDir
  rw [← List.length_pos_iff, List.length_take, List.length_append]
  omega

/-- A directory that is not there is created if its path fits. -/
theorem createConfDir_eq (hnew : ¬ fs.access s (confDir pwDir) = true) :
    createConfDir fs s pwDir =
      if (closedPath (confDir pwDir)).length < 256 then
        some (createDirs fs (closedPath (confDir pwDir))
          (List.range' 1 ((closedPath (confDir pwDir)).length - 1)) s).2
      else none := by
  rw [createConfDir, if_neg hnew, internalCreateDir_eq fs s (confDir_ne_nil pwDir)]
  split <;> rfl

/-- Creating the directory takes nothing away. -/
theorem access_createConfDir (hfs : fs.Lawful) (h : createConfDir fs s pwDir = some s₁) {q : Bytes}
    (hq : fs.access s q) : fs.access s₁ q := by
  by_cases hold : fs.access s (confDir pwDir) = true
  · rw [createConfDir, if_pos hold] at h
    obtain rfl := Option.some.inj h
    exact hq
  · rw [createConfDir_eq hold, Option.ite_none_right_eq_some] at h
    obtain rfl := Option.some.inj h.2
    exact (makesCuts_createDirs hfs _ rfl).access hq

/-- A path that is short enough is not cut off by `snprintf`. -/
theorem confDir_eq (h : (closedPath (confDir pwDir)).length < 256) :
    confDir pwDir = pwDir ++ asciiBytes "/.biometric_auth/" ∧
      confFile pwDir = pwDir ++ asciiBytes "/.biometric_auth/UUID" := by
  have hdirLen : (asciiBytes "/.biometric_auth/").length = 17 := by decide
  have hfileLen : (asciiBytes "/.biometric_auth/UUID").length = 21 := by decide
  have hcutLen : (confDir pwDir).length = min 1023 (pwDir.length + 17) := by
    rw [confDir, List.length_take, List.length_append, hdirLen]
    rfl
  have hle : (confDir pwDir).length ≤ (closedPath (confDir pwDir)).length := by
    unfold closedPath
    split
    · exact le_rfl
    · rw [List.length_append]
      exact Nat.le_add_right _ _
  have hshort : pwDir.length + 21 ≤ 1023 := by omega
  refine ⟨List.take_of_length_le ?_, List.take_of_length_le ?_⟩
  · rw [List.length_append, hdirLen]
    exact le_trans (by omega) hshort
  · rw [List.length_append, hfileLen]
    exact hshort

/-- Where the file is there, the directory is: a directory that has just been created has a path
that is not cut off, and the file lies in it. -/
theorem access_confDir (hfs : fs.Lawful) (h : createConfDir fs s pwDir = some s₁) {s₂ : σ}
    (hkeeps : ∀ q, fs.access s₁ q → fs.access s₂ q) (hfile : fs.access s₂ (confFile pwDir)) :
    fs.access s₂ (confDir pwDir) := by
  by_cases hold : fs.access s (confDir pwDir) = true
  · exact hkeeps _ (access_createConfDir hfs h hold)
  rw [createConfDir_eq hold, Option.ite_none_right_eq_some] at h
  -- a path that fits into 256 bytes has not been cut off at 1023
  obtain ⟨hdir, hfileEq⟩ := confDir_eq h.1
  have hparts : asciiBytes "/.biometric_auth/UUID" =
      asciiBytes "/.biometric_auth" ++ slash :: asciiBytes "UUID" := by decide
  have hparts' : asciiBytes "/.biometric_auth/" = asciiBytes "/.biometric_auth" ++ [slash] := by
    decide
  have hpne : pwDir ++ asciiBytes "/.biometric_auth" ≠ [] :=
    List.append_ne_nil_of_right_ne_nil _ (by decide)
  rw [hfileEq, hparts, ← List.append_assoc] at hfile
  obtain ⟨d, hd⟩ := Option.isSome_iff_exists.mp (hfs.dirAt_of_access hpne hfile)
  rw [hdir, hparts', ← List.append_assoc]
  exact hfs.access_of_dirAt ((hfs.dirAt_slash hpne).trans hd)

end Directory

/-! ### Two calls -/

/-- What a call leaves behind: everything is in place, and the file has the UUID `u`. -/
structure Settled (fs : FileSystem σ δ) (lib : UuidLibrary υ) (s : σ) (pwDir : Bytes) (u : υ) :
    Prop where
  home : fs.access s pwDir
  dir : fs.access s (confDir pwDir)
  file : fs.access s (confFile pwDir)
  content : ∃ content, fs.read s (confFile pwDir) = some content ∧
    (fgets content).bind lib.parse = some u

section Calls

variable {fs : FileSystem σ δ} {lib : UuidLibrary υ} {getpwuid : ℤ → Option Bytes} {s : σ}
  {uid : ℤ} {pwDir : Bytes}

/-- A call that finds everything in place only reads. -/
theorem internalGetUuidByUid_settled {u : υ} (hpw : getpwuid uid = some pwDir)
    (h : Settled fs lib s pwDir u) (generated : υ) :
    internalGetUuidByUid fs lib getpwuid generated s uid = some (lib.unparseLower u, s) := by
  obtain ⟨content, hread, hparse⟩ := h.content
  have hdir : createConfDir fs s pwDir = some s := if_pos h.dir
  simp only [internalGetUuidByUid, hpw, h.home, if_true, hdir, h.file, hread, hparse,
    Option.bind_eq_bind, Option.bind_some]

/-- A new UUID settles everything. -/
theorem settled_newUuid (hfs : fs.Lawful) (hlib : lib.Lawful) {s₁ : σ}
    (hcreate : createConfDir fs s pwDir = some s₁) (hhome : fs.access s pwDir)
    (hwrite : ∀ b, (fs.write s₁ (confFile pwDir) b).isSome) (u : υ) :
    ∃ s₂, newUuid fs lib u s₁ pwDir = some (lib.unparseLower u, s₂) ∧
      Settled fs lib s₂ pwDir u := by
  obtain ⟨s₂, hs₂⟩ := Option.isSome_iff_exists.mp (hwrite (lib.unparseLower u ++ [10]))
  have hkeeps : ∀ q, fs.access s₁ q → fs.access s₂ q := fun q hq => hfs.access_write hs₂ (.inr hq)
  have hfile : fs.access s₂ (confFile pwDir) := hfs.access_write hs₂ (.inl rfl)
  refine ⟨s₂, ?_, hkeeps _ (access_createConfDir hfs hcreate hhome),
    access_confDir hfs hcreate hkeeps hfile, hfile, _, hfs.read_write hs₂, ?_⟩
  · simp only [newUuid, hs₂, Option.bind_eq_bind, Option.bind_some]
  · rw [fgets_unparseLower hlib, Option.bind_some, hlib.parse_unparseLower]

/-- Every path of a call with a home directory ends settled. -/
theorem exists_settled (hfs : fs.Lawful) (hlib : lib.Lawful) (hpw : getpwuid uid = some pwDir)
    (hhome : fs.access s pwDir) (hopens : ConfFileOpens fs getpwuid s uid) {s₁ : σ}
    (hcreate : createConfDir fs s pwDir = some s₁) (generated : υ) :
    ∃ u s₂, internalGetUuidByUid fs lib getpwuid generated s uid = some (lib.unparseLower u, s₂) ∧
      Settled fs lib s₂ pwDir u := by
  -- the file can be read where it is there, and written where it is not
  obtain ⟨hread, hwrite⟩ := hopens pwDir s₁ hpw hcreate
  -- a new UUID settles it
  obtain ⟨s₂, hnew, hsettled⟩ := settled_newUuid hfs hlib hcreate hhome hwrite generated
  by_cases hfile : fs.access s₁ (confFile pwDir) = true
  · -- the file is there
    obtain ⟨content, hcontent⟩ := Option.isSome_iff_exists.mp (hread hfile)
    cases hparse : (fgets content).bind lib.parse with
    | none =>
      -- it has no UUID, so a new one is written
      refine ⟨generated, s₂, ?_, hsettled⟩
      simp only [internalGetUuidByUid, hpw, hhome, if_true, hcreate, hfile, hcontent, hparse, hnew,
        Option.bind_eq_bind, Option.bind_some]
    | some u =>
      -- it has one, which is returned
      refine ⟨u, s₁, ?_, access_createConfDir hfs hcreate hhome,
        access_confDir hfs hcreate (fun _ => id) hfile, hfile, content, hcontent, hparse⟩
      simp only [internalGetUuidByUid, hpw, hhome, if_true, hcreate, hfile, hcontent, hparse,
        Option.bind_eq_bind, Option.bind_some]
  · -- the file is not there
    refine ⟨generated, s₂, ?_, hsettled⟩
    simp only [internalGetUuidByUid, hpw, hhome, if_true, hcreate, hfile, hnew,
      Option.bind_eq_bind, Option.bind_some, Bool.false_eq_true, if_false]

/-- The directory can be created exactly if its path fits. -/
theorem createConfDir_isSome_iff : (createConfDir fs s pwDir).isSome ↔
    fs.access s (confDir pwDir) ∨ (closedPath (confDir pwDir)).length < 256 := by
  by_cases hold : fs.access s (confDir pwDir) = true
  · simp [createConfDir, hold]
  rw [createConfDir_eq hold]
  by_cases hfits : (closedPath (confDir pwDir)).length < 256
  · simp [hfits]
  · simp [hold, hfits]

/-- A call that repeats itself is stable. -/
theorem uuidStable_of_repeats (h : ∀ generated, ∃ uuid s₁,
    internalGetUuidByUid fs lib getpwuid generated s uid = some (uuid, s₁) ∧
      ∀ generated', internalGetUuidByUid fs lib getpwuid generated' s₁ uid = some (uuid, s₁)) :
    UuidStable fs lib getpwuid s uid := by
  intro generated generated'
  obtain ⟨uuid, s₁, hfirst, hagain⟩ := h generated
  refine ⟨uuid, s₁, uuid, hfirst, hagain generated', rfl, ?_⟩
  rintro uuidOf r rfl hrow huuid
  rw [EigenRow.isCurrent, hrow, huuid]
  exact decide_eq_true rfl

/-- Without room for the directory the first call does not return. -/
theorem confDirFits_of_uuidStable [Inhabited υ] (hstable : UuidStable fs lib getpwuid s uid) :
    ConfDirFits fs getpwuid s uid := by
  intro pwDir hpw hhome
  obtain ⟨uuid, s₁, -, hcall, -⟩ := hstable default default
  rw [← createConfDir_isSome_iff]
  by_contra hnone
  rw [Option.not_isSome_iff_eq_none] at hnone
  simp only [internalGetUuidByUid, hpw, hhome, if_true, hnone, Option.bind_eq_bind,
    Option.bind_none] at hcall
  cases hcall

/-- With it both calls return the same. -/
theorem uuidStable_of_confDirFits (hfs : fs.Lawful) (hlib : lib.Lawful)
    (hopens : ConfFileOpens fs getpwuid s uid) (hfits : ConfDirFits fs getpwuid s uid) :
    UuidStable fs lib getpwuid s uid := by
  refine uuidStable_of_repeats fun generated => ?_
  cases hpw : getpwuid uid with
  | none =>
    refine ⟨UUID_DEFAULT, s, ?_, fun generated' => ?_⟩ <;> simp only [internalGetUuidByUid, hpw]
  | some pwDir =>
    by_cases hhome : fs.access s pwDir = true
    · obtain ⟨s₁, hcreate⟩ := Option.isSome_iff_exists.mp
        (createConfDir_isSome_iff.mpr (hfits pwDir hpw hhome))
      obtain ⟨u, s₂, hcall, hsettled⟩ :=
        exists_settled hfs hlib hpw hhome hopens hcreate generated
      exact ⟨_, s₂, hcall, internalGetUuidByUid_settled hpw hsettled⟩
    · -- nothing is touched without a home directory
      refine ⟨UUID_DEFAULT, s, ?_, fun generated' => ?_⟩ <;>
        simp only [internalGetUuidByUid, hpw, hhome, Bool.false_eq_true, if_false]

end Calls

/-- The UUID of a user is stable exactly if there is room for creating its directory. -/
theorem uuidStable_iff [Inhabited υ] {fs : FileSystem σ δ} (hfs : fs.Lawful) {lib : UuidLibrary υ}
    (hlib : lib.Lawful) (getpwuid : ℤ → Option Bytes) (s : σ) (uid : ℤ)
    (hopens : ConfFileOpens fs getpwuid s uid) :
    UuidStable fs lib getpwuid s uid ↔ ConfDirFits fs getpwuid s uid :=
  ⟨confDirFits_of_uuidStable, uuidStable_of_confDirFits hfs hlib hopens⟩

/-- A file system with nothing but a home directory below the root. -/
def homeTree (name : Bytes) : PathTree :=
  PathTree.empty.add [name] .dir (by simp [PathTree.empty]) rfl

/-- The first call of a user with the home directory `/u` creates the directory and the file. -/
theorem uuidStable_first : UuidStable PathTree.fileSystem HexUuid.hexLibrary
    (fun _ => some (asciiBytes "/u")) (homeTree [117]) 1000 := by
  refine (uuidStable_iff PathTree.lawful HexUuid.hexLibrary_lawful _ _ _ ?_).mpr ?_
  · rintro pwDir s₁ hpw hcreate
    obtain rfl := Option.some.inj hpw
    have hnew : (createConfDir PathTree.fileSystem (homeTree [117]) (asciiBytes "/u")).all
        fun t => !PathTree.fileSystem.access t (confFile (asciiBytes "/u")) &&
          decide (t.Free (pathNames [] (confFile (asciiBytes "/u")))) := by decide +kernel
    rw [hcreate, Option.all_some, Bool.and_eq_true, Bool.not_eq_true', decide_eq_true_eq] at hnew
    refine ⟨fun hfile => absurd hfile (by rw [hnew.1]; decide), fun b => ?_⟩
    exact PathTree.write_isSome hnew.2 (by decide) b
  · rintro pwDir hpw -
    obtain rfl := Option.some.inj hpw
    exact .inr (by decide)

/-- A home directory of 239 bytes: the path of the new directory has 256. -/
theorem not_uuidStable : ¬ ∀ (getpwuid : ℤ → Option Bytes) (t : PathTree) (uid : ℤ),
    ConfFileOpens PathTree.fileSystem getpwuid t uid →
      UuidStable PathTree.fileSystem HexUuid.hexLibrary getpwuid t uid := by
  intro hall
  have hstable := hall (fun _ => some (slash :: List.replicate 238 97))
    (homeTree (List.replicate 238 97)) 1000 ?_
  · have hfits := confDirFits_of_uuidStable hstable (slash :: List.replicate 238 97) rfl
      (by decide +kernel)
    exact absurd hfits (by decide +kernel)
  · rintro pwDir s₁ hpw hcreate
    obtain rfl := Option.some.inj hpw
    have hnone : createConfDir PathTree.fileSystem (homeTree (List.replicate 238 97))
        (slash :: List.replicate 238 97) = none := by
      rw [← Option.not_isSome_iff_eq_none, createConfDir_isSome_iff]
      decide +kernel
    rw [hnone] at hcreate
    cases hcreate

end BiometricAuth
