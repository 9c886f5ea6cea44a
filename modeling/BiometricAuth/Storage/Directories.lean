import BiometricAuth.Lib.FileSystem
import BiometricAuth.Storage.Table

/-!
# Creating a directory

`internal_create_dir` of `biometric_storage.c`: it copies the path into a buffer of 256 bytes, ends
it with a slash, and cuts the copy at one slash after the other; what is not there yet becomes a
directory. A path that does not fit and an empty one are `none`.

Main result: `createsDir_iff` — the path is a directory afterwards exactly if it fits and its last
name is not taken by something else.
-/

namespace BiometricAuth

variable {σ δ : Type}

/-! ### The function -/

/-- `strcpy` and `strcat`: the path, with a slash at its end. -/
def closedPath (newDir : Bytes) : Bytes :=
  if newDir.getLast? = some slash then newDir else newDir ++ [slash]

/-- The loop over the positions of the buffer. The buffer is cut in front of a slash and the slash
is put back, unless `mkdir` fails. -/
def createDirs (fs : FileSystem σ δ) (dirName : Bytes) : List ℕ → σ → ℤ × σ
  | [], s => (0, s)
  | i :: rest, s =>
    if dirName[i]? = some slash then
      if fs.access s (dirName.take i) then createDirs fs dirName rest s
      else
        match fs.mkdir s (dirName.take i) with
        | none => (-1, s)
        | some s' => createDirs fs dirName rest s'
    else createDirs fs dirName rest s

/-- `internal_create_dir`. -/
def internalCreateDir (fs : FileSystem σ δ) (s : σ) (newDir : Bytes) : Option (ℤ × σ) :=
  -- `dir_name[len - 1]`
  if newDir = [] then none
  else
    let dirName := closedPath newDir
    if dirName.length < 256 then
      some (createDirs fs dirName (List.range' 1 (dirName.length - 1)) s)
    else none

/-! ### What it is for -/

/-- The call stays in its buffer, and if it returns 0, whatever of the path is in front of a slash
is a directory and so is the path, and no directory is new but these. -/
def CreatesDir (fs : FileSystem σ δ) (s : σ) (newDir : Bytes) : Prop :=
  ∃ r s', internalCreateDir fs s newDir = some (r, s') ∧
    (r = 0 → (∀ before after, closedPath newDir = before ++ slash :: after →
        (fs.dirAt s' (before ++ [slash])).isSome) ∧
      (fs.dirAt s' newDir).isSome ∧
      ∀ d ∈ fs.dirs s', d ∈ fs.dirs s ∨ ∃ before after,
        closedPath newDir = before ++ slash :: after ∧
          fs.dirAt s' (before ++ [slash]) = some d)

/-- The path without the slash at its end. -/
def lastCut (newDir : Bytes) : Bytes := (closedPath newDir).dropLast

/-- When the loop comes to its last cut there is something of this name, and no directory. -/
def TakenAtEnd (fs : FileSystem σ δ) (s : σ) (newDir : Bytes) : Prop :=
  ∃ s₁, createDirs fs (closedPath newDir) (List.range' 1 ((closedPath newDir).length - 2)) s =
    (0, s₁) ∧ fs.access s₁ (lastCut newDir) ∧ fs.dirAt s₁ (lastCut newDir) = none

/-! ### The loop -/

section Loop

variable {fs : FileSystem σ δ} {dirName : Bytes}

variable (fs dirName) in
/-- What a round can do: it does nothing, it fails, or it makes one directory. -/
theorem createDirs_cons_cases (i : ℕ) (rest : List ℕ) (s : σ) :
    createDirs fs dirName (i :: rest) s = createDirs fs dirName rest s ∧
        (dirName[i]? = some slash → fs.access s (dirName.take i)) ∨
      createDirs fs dirName (i :: rest) s = (-1, s) ∨
      ∃ s', dirName[i]? = some slash ∧ fs.mkdir s (dirName.take i) = some s' ∧
        createDirs fs dirName (i :: rest) s = createDirs fs dirName rest s' := by
  by_cases hslash : dirName[i]? = some slash
  · by_cases hacc : fs.access s (dirName.take i) = true
    · exact .inl ⟨by rw [createDirs, if_pos hslash, if_pos hacc], fun _ => hacc⟩
    right
    cases hmk : fs.mkdir s (dirName.take i) with
    | none =>
      left
      rw [createDirs, if_pos hslash, if_neg hacc, hmk]
    | some s' =>
      right
      refine ⟨s', hslash, rfl, ?_⟩
      rw [createDirs, if_pos hslash, if_neg hacc, hmk]
  · exact .inl ⟨by rw [createDirs, if_neg hslash], fun h => absurd h hslash⟩

/-- The directories that a run of the loop leaves alone and those that it makes. -/
structure MakesCuts (fs : FileSystem σ δ) (dirName : Bytes) (is : List ℕ) (s s' : σ) : Prop where
  keeps : ∀ {q d}, fs.dirAt s q = some d → fs.dirAt s' q = some d
  access : ∀ {q}, fs.access s q → fs.access s' q
  makes : ∀ d ∈ fs.dirs s', d ∈ fs.dirs s ∨
    ∃ i ∈ is, dirName[i]? = some slash ∧ fs.dirAt s' (dirName.take i) = some d

/-- **Run lemma.** -/
theorem makesCuts_createDirs (hfs : fs.Lawful) (is : List ℕ) {s s' : σ} {r : ℤ}
    (h : createDirs fs dirName is s = (r, s')) : MakesCuts fs dirName is s s' := by
  induction is generalizing s with
  | nil =>
    obtain ⟨-, rfl⟩ := Prod.mk.inj h
    exact ⟨id, id, fun d hd => .inl hd⟩
  | cons i rest ih =>
    rcases createDirs_cons_cases fs dirName i rest s with
      ⟨hstay, -⟩ | hfail | ⟨s₁, hslash, hmk, hmade⟩
    · -- no cut here, or the directory is there: the loop goes on
      rw [hstay] at h
      obtain ⟨hkeeps, hacc, hmakes⟩ := ih h
      refine ⟨hkeeps, hacc, fun d hd => (hmakes d hd).imp_right ?_⟩
      rintro ⟨j, hj, hcut⟩
      exact ⟨j, List.mem_cons_of_mem i hj, hcut⟩
    · -- `mkdir` failed, and the loop ends
      rw [hfail] at h
      obtain ⟨-, rfl⟩ := Prod.mk.inj h
      exact ⟨id, id, fun d hd => .inl hd⟩
    · -- a directory is made, and stays with the ones that follow
      rw [hmade] at h
      obtain ⟨hkeeps, hacc, hmakes⟩ := ih h
      obtain ⟨d₁, hd₁, hdirs⟩ := hfs.mkdir_dirAt hmk
      refine ⟨fun hq => hkeeps (hfs.dirAt_mkdir hmk hq), fun hq => hacc (hfs.access_mkdir hmk hq),
        fun d hd => ?_⟩
      rcases hmakes d hd with hold | ⟨j, hj, hcut⟩
      · -- it was there before this part of the path, or is the one just made
        rw [hdirs, Set.mem_insert_iff] at hold
        rcases hold with rfl | hold
        · exact .inr ⟨i, List.mem_cons_self, hslash, hkeeps hd₁⟩
        · exact .inl hold
      · exact .inr ⟨j, List.mem_cons_of_mem i hj, hcut⟩

/-- A run over two stretches. -/
theorem createDirs_append (is js : List ℕ) (s : σ) :
    createDirs fs dirName (is ++ js) s =
      if (createDirs fs dirName is s).1 = 0 then
        createDirs fs dirName js (createDirs fs dirName is s).2
      else createDirs fs dirName is s := by
  induction is generalizing s with
  | nil => rfl
  | cons i rest ih =>
    rw [List.cons_append, createDirs, createDirs]
    by_cases hslash : dirName[i]? = some slash
    · rw [if_pos hslash, if_pos hslash]
      by_cases hacc : fs.access s (dirName.take i) = true
      · rw [if_pos hacc, if_pos hacc, ih]
      · rw [if_neg hacc, if_neg hacc]
        cases fs.mkdir s (dirName.take i) with
        | none => rfl
        | some s' => exact ih s'
    · rw [if_neg hslash, if_neg hslash, ih]

end Loop

/-! ### The cuts of a path -/

theorem closedPath_eq (newDir : Bytes) : closedPath newDir = lastCut newDir ++ [slash] := by
  unfold lastCut closedPath
  split
  · next hlast =>
    obtain ⟨init, hinit⟩ := List.getLast?_eq_some_iff.mp hlast
    rw [hinit, List.dropLast_concat]
  · rw [List.dropLast_concat]

/-- The path itself is its last cut, up to a slash. -/
theorem eq_lastCut (newDir : Bytes) : newDir = lastCut newDir ++ [slash] ∨
    newDir = lastCut newDir := by
  have hclosed := closedPath_eq newDir
  unfold closedPath at hclosed
  split at hclosed
  · exact .inl hclosed
  · exact .inr (List.append_cancel_right hclosed)

section Cuts

variable {fs : FileSystem σ δ} {newDir : Bytes}

/-- A path names what its last cut names. -/
theorem dirAt_newDir (hfs : fs.Lawful) (s : σ) (hcut : lastCut newDir ≠ []) :
    fs.dirAt s newDir = fs.dirAt s (lastCut newDir) := by
  rcases eq_lastCut newDir with hslash | hsame
  · calc fs.dirAt s newDir = fs.dirAt s (lastCut newDir ++ [slash]) := congrArg _ hslash
      _ = fs.dirAt s (lastCut newDir) := hfs.dirAt_slash hcut
  · exact congrArg _ hsame

/-- The loop goes through the cuts in front of the last one, and then through that one. -/
theorem createDirs_closedPath (fs : FileSystem σ δ) (s : σ) (hcut : lastCut newDir ≠ []) :
    createDirs fs (closedPath newDir) (List.range' 1 ((closedPath newDir).length - 1)) s =
      let run := createDirs fs (closedPath newDir)
        (List.range' 1 ((closedPath newDir).length - 2)) s
      if run.1 = 0 then createDirs fs (closedPath newDir) [(lastCut newDir).length] run.2
      else run := by
  have hlen : (closedPath newDir).length = (lastCut newDir).length + 1 := by
    rw [closedPath_eq, List.length_append, List.length_singleton]
  have hpos : 0 < (lastCut newDir).length := List.length_pos_iff.mpr hcut
  have hrange : List.range' 1 ((closedPath newDir).length - 1) =
      List.range' 1 ((closedPath newDir).length - 2) ++ [(lastCut newDir).length] := by
    obtain ⟨n, hn⟩ : ∃ n, (lastCut newDir).length = n + 1 := ⟨_, (Nat.succ_pred hpos.ne').symm⟩
    rw [hlen, hn]
    show List.range' 1 (n + 1) = List.range' 1 n ++ [n + 1]
    rw [List.range'_1_concat, Nat.add_comm 1 n]
  rw [hrange, createDirs_append]

/-- The round of the last cut. -/
theorem createDirs_lastCut (fs : FileSystem σ δ) (s : σ) :
    createDirs fs (closedPath newDir) [(lastCut newDir).length] s =
      if fs.access s (lastCut newDir) then (0, s)
      else ((fs.mkdir s (lastCut newDir)).map fun s' => ((0 : ℤ), s')).getD (-1, s) := by
  have hslash : (closedPath newDir)[(lastCut newDir).length]? = some slash := by
    rw [closedPath_eq, List.getElem?_append_right le_rfl, Nat.sub_self]
    rfl
  have htake : (closedPath newDir).take (lastCut newDir).length = lastCut newDir := by
    rw [closedPath_eq, List.take_left]
  rw [createDirs, if_pos hslash, htake]
  cases fs.mkdir s (lastCut newDir) <;> rfl

/-- If the loop returns 0 the last cut is a directory, unless its name was taken. -/
theorem dirAt_lastCut (hfs : fs.Lawful) {s s' : σ} (hcut : lastCut newDir ≠ [])
    (hfree : ¬ TakenAtEnd fs s newDir)
    (hrun : createDirs fs (closedPath newDir) (List.range' 1 ((closedPath newDir).length - 1)) s =
      (0, s')) : ∃ d, fs.dirAt s' (lastCut newDir) = some d := by
  rw [createDirs_closedPath fs s hcut] at hrun
  cases hparents : createDirs fs (closedPath newDir)
      (List.range' 1 ((closedPath newDir).length - 2)) s with
  | mk r s₁ =>
    simp only [hparents] at hrun
    by_cases hr : r = 0
    · subst hr
      rw [if_pos rfl, createDirs_lastCut] at hrun
      -- its name is there, and it is a directory, as nothing else may have the name
      by_cases hacc : fs.access s₁ (lastCut newDir) = true
      · rw [if_pos hacc] at hrun
        obtain ⟨-, rfl⟩ := Prod.mk.inj hrun
        refine Option.ne_none_iff_exists'.mp fun hnone => hfree ⟨s₁, hparents, hacc, hnone⟩
      · rw [if_neg hacc] at hrun
        -- the name is free, so the directory is made
        cases hmk : fs.mkdir s₁ (lastCut newDir) with
        | none =>
          -- `mkdir` would have returned -1
          rw [hmk] at hrun
          have hcode : (-1 : ℤ) = 0 := congrArg Prod.fst hrun
          exact absurd hcode (by decide)
        | some s₂ =>
          rw [hmk] at hrun
          obtain ⟨-, rfl⟩ := Prod.mk.inj hrun
          exact (hfs.mkdir_dirAt hmk).imp fun d hd => hd.1
    · -- a parent could not be made, and the loop did not return 0
      rw [if_neg hr] at hrun
      exact absurd (congrArg Prod.fst hrun) hr

/-- With the last cut everything in front of it is a directory. -/
theorem dirAt_before (hfs : fs.Lawful) {s : σ} (hlast : (fs.dirAt s (lastCut newDir)).isSome)
    {before after : Bytes} (hcut : closedPath newDir = before ++ slash :: after) :
    (fs.dirAt s (before ++ [slash])).isSome := by
  by_cases hbefore : before = []
  · rw [hbefore]
    exact hfs.dirAt_root s
  rw [hfs.dirAt_slash hbefore]
  rw [closedPath_eq] at hcut
  rcases List.eq_nil_or_concat after with rfl | ⟨init, b, rfl⟩
  · rwa [← List.append_cancel_right hcut]
  · have hlonger : lastCut newDir = before ++ slash :: init := by
      rw [List.concat_eq_append, ← List.cons_append, ← List.append_assoc] at hcut
      exact (List.append_inj' hcut rfl).1
    obtain ⟨d, hd⟩ := Option.isSome_iff_exists.mp hlast
    exact hfs.dirAt_of_access hbefore (hlonger ▸ hfs.access_of_dirAt hd)

/-- A new directory is one of the cuts. -/
theorem mem_dirs_createDirs (hfs : fs.Lawful) {s s' : σ} {n : ℕ} {r : ℤ}
    (hrun : createDirs fs (closedPath newDir) (List.range' 1 n) s = (r, s')) {d : δ}
    (hd : d ∈ fs.dirs s') : d ∈ fs.dirs s ∨ ∃ before after,
      closedPath newDir = before ++ slash :: after ∧
        fs.dirAt s' (before ++ [slash]) = some d := by
  refine ((makesCuts_createDirs hfs _ hrun).makes d hd).imp_right ?_
  rintro ⟨i, hi, hslash, hdir⟩
  obtain ⟨hlt, hget⟩ := List.getElem?_eq_some_iff.mp hslash
  have hpos : 1 ≤ i := (List.mem_range'_1.mp hi).1
  have hne : (closedPath newDir).take i ≠ [] := by
    rw [← List.length_pos_iff, List.length_take]
    omega
  refine ⟨(closedPath newDir).take i, (closedPath newDir).drop (i + 1), ?_, ?_⟩
  · rw [← hget, ← List.drop_eq_getElem_cons hlt, List.take_append_drop]
  · rw [hfs.dirAt_slash hne, hdir]

end Cuts

/-! ### The result -/

theorem internalCreateDir_eq (fs : FileSystem σ δ) (s : σ) {newDir : Bytes} (h : newDir ≠ []) :
    internalCreateDir fs s newDir =
      if (closedPath newDir).length < 256 then
        some (createDirs fs (closedPath newDir)
          (List.range' 1 ((closedPath newDir).length - 1)) s)
      else none := if_neg h

/-- The path is made a directory exactly if it fits, and nothing else has its last name. -/
theorem createsDir_iff (fs : FileSystem σ δ) (hfs : fs.Lawful) (s : σ) (newDir : Bytes)
    (h : newDir ≠ []) :
    CreatesDir fs s newDir ↔ (closedPath newDir).length < 256 ∧ ¬ TakenAtEnd fs s newDir := by
  constructor
  · rintro ⟨r, s', hcall, hdone⟩
    rw [internalCreateDir_eq fs s h, Option.ite_none_right_eq_some] at hcall
    obtain ⟨hfits, hrun⟩ := hcall
    refine ⟨hfits, ?_⟩
    rintro ⟨s₁, hparents, hacc, hnone⟩
    -- the name that is taken is not the empty one
    have hcut : lastCut newDir ≠ [] := fun hcut => by
      rw [hcut, hfs.access_nil] at hacc
      cases hacc
    -- the last round finds the name taken and leaves it at that
    have hzero : (0, s₁) = (r, s') := by
      rw [← Option.some.inj hrun, createDirs_closedPath fs s hcut, hparents]
      simp only [if_true, createDirs_lastCut, hacc]
    obtain ⟨rfl, rfl⟩ := Prod.mk.inj hzero
    have hdir := (hdone rfl).1 (lastCut newDir) [] (closedPath_eq newDir)
    rw [hfs.dirAt_slash hcut, hnone] at hdir
    cases hdir
  · -- the path fits, and its last name is free or a directory: every round makes a directory or
    -- finds one
    rintro ⟨hfits, hfree⟩
    cases hrun : createDirs fs (closedPath newDir)
        (List.range' 1 ((closedPath newDir).length - 1)) s with
    | mk r s' =>
      refine ⟨r, s', by rw [internalCreateDir_eq fs s h, if_pos hfits, hrun], fun hr => ?_⟩
      subst hr
      have hmade := fun d => mem_dirs_createDirs hfs hrun (d := d)
      by_cases hcut : lastCut newDir = []
      · -- the path is the root
        have hclosed : closedPath newDir = [slash] := by rw [closedPath_eq, hcut, List.nil_append]
        have hroot : newDir = [slash] := by
          rcases eq_lastCut newDir with hslash | hsame
          · rw [hslash, hcut, List.nil_append]
          · exact absurd (hsame.trans hcut) h
        refine ⟨fun before after hcuts => ?_, by rw [hroot]; exact hfs.dirAt_root s', hmade⟩
        rw [hclosed] at hcuts
        cases before with
        | nil => exact hfs.dirAt_root s'
        | cons b rest =>
          have hlen := congrArg List.length hcuts
          simp at hlen
      · -- the last directory is there, hence all those before it
        have hsome : (fs.dirAt s' (lastCut newDir)).isSome :=
          Option.isSome_iff_exists.mpr (dirAt_lastCut hfs hcut hfree hrun)
        refine ⟨fun before after => dirAt_before hfs hsome, ?_, hmade⟩
        rwa [dirAt_newDir hfs s' hcut]

/-- `/a/b` in an empty file system: both directories are made. -/
theorem createsDir_nested :
    CreatesDir PathTree.fileSystem PathTree.empty [slash, 97, slash, 98] := by
  refine (createsDir_iff _ PathTree.lawful _ _ (List.cons_ne_nil _ _)).mpr ⟨by decide, ?_⟩
  rintro ⟨s₁, hparents, hacc, -⟩
  obtain rfl := congrArg Prod.snd hparents
  exact absurd hacc (by decide)

/-- A name of 255 letters does not fit: with its two slashes it has 257 bytes. -/
theorem not_createsDir : ¬ ∀ newDir : Bytes, newDir ≠ [] → newDir.length ≤ 1023 → 0 ∉ newDir →
    CreatesDir PathTree.fileSystem PathTree.empty newDir := by
  intro hall
  have hletters : ∀ b ∈ slash :: List.replicate 255 97, b ≠ 0 := by
    rintro b (- | ⟨-, hb⟩)
    · decide
    · rw [List.eq_of_mem_replicate hb]
      decide
  obtain ⟨r, s', hcall, -⟩ := hall (slash :: List.replicate 255 97) (List.cons_ne_nil _ _)
    (by rw [List.length_cons, List.length_replicate]; decide) fun hzero => hletters 0 hzero rfl
  have hlong : ¬ (closedPath (slash :: List.replicate 255 97)).length < 256 := by decide +kernel
  rw [internalCreateDir_eq _ _ (List.cons_ne_nil _ _), if_neg hlong] at hcall
  cases hcall

end BiometricAuth
