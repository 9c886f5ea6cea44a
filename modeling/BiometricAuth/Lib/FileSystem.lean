import Mathlib.Data.Set.Insert
import Mathlib.Data.List.Induction
import Mathlib.Logic.Function.Basic

/-!
# File systems seen through paths

The calls of a program that names files by paths: `access`, `mkdir`, and the reading and writing of
a whole file. A state is opaque and so is a directory, since links and dots let many paths name one
directory. `FileSystem.Lawful` is what the calls are documented to do.

`pathTree` is a file system with neither links nor dots: a tree of names.
-/

/-- The byte that separates the names of a path. -/
def slash : UInt8 := 47

/-- The calls, with the states `σ` and the directories `δ`. -/
structure FileSystem (σ δ : Type) where
  /-- Whether the path names anything that exists. -/
  access : σ → List UInt8 → Bool
  /-- `none` is a failure, which changes nothing. -/
  mkdir : σ → List UInt8 → Option σ
  /-- The bytes of the file; `none` is a file that cannot be opened. -/
  read : σ → List UInt8 → Option (List UInt8)
  /-- The file with these bytes in the place of its own; `none` as for `read`. -/
  write : σ → List UInt8 → List UInt8 → Option σ
  /-- The directory that a path names, if it names one. -/
  dirAt : σ → List UInt8 → Option δ
  /-- The directories that exist. -/
  dirs : σ → Set δ

namespace FileSystem

variable {σ δ : Type}

/-- The laws of the calls, for a time in which nobody else changes anything. -/
structure Lawful (fs : FileSystem σ δ) : Prop where
  access_nil : ∀ s, fs.access s [] = false
  access_of_dirAt : ∀ {s p d}, fs.dirAt s p = some d → fs.access s p
  dirAt_root : ∀ s, (fs.dirAt s [slash]).isSome
  /-- A slash at the end makes no other directory. -/
  dirAt_slash : ∀ {s p}, p ≠ [] → fs.dirAt s (p ++ [slash]) = fs.dirAt s p
  /-- What is in front of a slash is a directory. -/
  dirAt_of_access : ∀ {s p q}, p ≠ [] → fs.access s (p ++ slash :: q) → (fs.dirAt s p).isSome
  mkdir_dirAt : ∀ {s s' p}, fs.mkdir s p = some s' →
    ∃ d, fs.dirAt s' p = some d ∧ fs.dirs s' = insert d (fs.dirs s)
  dirAt_mkdir : ∀ {s s' p q d}, fs.mkdir s p = some s' → fs.dirAt s q = some d →
    fs.dirAt s' q = some d
  access_mkdir : ∀ {s s' p q}, fs.mkdir s p = some s' → fs.access s q → fs.access s' q
  access_write : ∀ {s s' p q b}, fs.write s p b = some s' → q = p ∨ fs.access s q →
    fs.access s' q
  read_write : ∀ {s s' p b}, fs.write s p b = some s' → fs.read s' p = some b

end FileSystem

/-! ### A tree of names -/

/-- What a name can stand for. -/
inductive PathNode
  | dir
  | file (content : List UInt8)
deriving DecidableEq, Repr

/-- The names of a path, after the part `name` of the first one. -/
def pathNames (name : List UInt8) : List UInt8 → List (List UInt8)
  | [] => if name = [] then [] else [name]
  | b :: rest =>
    if b = slash then (if name = [] then [] else [name]) ++ pathNames [] rest
    else pathNames (name ++ [b]) rest

theorem pathNames_append_slash (p q : List UInt8) (name : List UInt8) :
    pathNames name (p ++ slash :: q) = pathNames name p ++ pathNames [] q := by
  induction p generalizing name with
  | nil => simp [pathNames]
  | cons b rest ih =>
    by_cases hb : b = slash
    · simp [pathNames, hb, ih]
    · simp [pathNames, hb, ih]

/-- A path that does not end in a slash ends in a name. -/
theorem pathNames_ne_nil {p name : List UInt8} (h : p ≠ [] ∨ name ≠ [])
    (hlast : p.getLast? ≠ some slash) : pathNames name p ≠ [] := by
  induction p generalizing name with
  | nil => simpa [pathNames] using h
  | cons b rest ih =>
    cases rest with
    | nil =>
      have hb : b ≠ slash := fun hb => hlast (by rw [hb]; rfl)
      simp [pathNames, hb]
    | cons c rest =>
      rw [List.getLast?_cons_cons] at hlast
      rw [pathNames]
      split
      · exact List.append_ne_nil_of_right_ne_nil _ (ih (.inl (List.cons_ne_nil _ _)) hlast)
      · exact ih (.inl (List.cons_ne_nil _ _)) hlast

/-- The nodes by the names on the way to them. What is below a node is below a directory. -/
structure PathTree where
  node : List (List UInt8) → Option PathNode
  root : node [] = some .dir
  below : ∀ names x, node (names ++ [x]) ≠ none → node names = some .dir

namespace PathTree

/-- The root alone. -/
def empty : PathTree where
  node names := if names = [] then some .dir else none
  root := rfl
  below := by simp

theorem node_of_append {t : PathTree} {names more : List (List UInt8)} (hmore : more ≠ [])
    (h : t.node (names ++ more) ≠ none) : t.node names = some .dir := by
  induction more using List.reverseRec with
  | nil => exact absurd rfl hmore
  | append_singleton init x ih =>
    rw [← List.append_assoc] at h
    have hinit := t.below _ _ h
    by_cases hnil : init = []
    · rwa [hnil, List.append_nil] at hinit
    · exact ih hnil (by rw [hinit]; simp)

/-- A node in the place of a file or of nothing. -/
def add (t : PathTree) (names : List (List UInt8)) (n : PathNode)
    (hfree : t.node names ≠ some .dir) (hway : t.node names.dropLast = some .dir) : PathTree where
  node := Function.update t.node names (some n)
  root := by
    have hne : [] ≠ names := fun hnil => hfree (hnil ▸ t.root)
    rw [Function.update_of_ne hne, t.root]
  below := by
    intro m x hnode
    by_cases hm : m ++ [x] = names
    · have hdrop : names.dropLast = m := by rw [← hm, List.dropLast_concat]
      have hne : m ≠ names := fun h => by simpa [h] using congrArg List.length hm
      rwa [Function.update_of_ne hne, ← hdrop]
    · rw [Function.update_of_ne hm] at hnode
      have hdir := t.below m x hnode
      have hne : m ≠ names := fun h => hfree (h ▸ hdir)
      rwa [Function.update_of_ne hne]

/-- The file that a path names; one that ends in a slash names none. -/
def fileAt (t : PathTree) (p : List UInt8) : Option (List UInt8) :=
  match t.node (pathNames [] p) with
  | some (.file content) => if p.getLast? = some slash then none else some content
  | _ => none

/-- Names for something new. -/
def Free (t : PathTree) (names : List (List UInt8)) : Prop :=
  t.node names ≠ some .dir ∧ t.node names.dropLast = some .dir

instance decidableFree (t : PathTree) (names : List (List UInt8)) : Decidable (t.Free names) :=
  inferInstanceAs (Decidable (_ ∧ _))

/-- The file system of a tree. -/
def fileSystem : FileSystem PathTree (List (List UInt8)) where
  access t p := p ≠ [] ∧ (t.node (pathNames [] p) = some .dir ∨ (t.fileAt p).isSome)
  mkdir t p :=
    if h : t.Free (pathNames [] p) ∧ t.node (pathNames [] p) = none then
      some (t.add _ .dir h.1.1 h.1.2)
    else none
  read := fileAt
  write t p b :=
    if h : t.Free (pathNames [] p) ∧ p.getLast? ≠ some slash then
      some (t.add _ (.file b) h.1.1 h.1.2)
    else none
  dirAt t p :=
    if p ≠ [] ∧ t.node (pathNames [] p) = some .dir then some (pathNames [] p) else none
  dirs t := { names | t.node names = some .dir }

theorem write_isSome {t : PathTree} {p : List UInt8} (hfree : t.Free (pathNames [] p))
    (hlast : p.getLast? ≠ some slash) (b : List UInt8) : (fileSystem.write t p b).isSome := by
  simp [fileSystem, hfree, hlast]

/-! ### The tree is lawful -/

section Lawful

variable {t t' : PathTree} {p q : List UInt8}

theorem dirAt_iff {d : List (List UInt8)} : fileSystem.dirAt t p = some d ↔
    (p ≠ [] ∧ t.node (pathNames [] p) = some .dir) ∧ pathNames [] p = d := by
  simp only [fileSystem, Option.ite_none_right_eq_some, Option.some.injEq]

theorem access_iff : fileSystem.access t p = true ↔
    p ≠ [] ∧ (t.node (pathNames [] p) = some .dir ∨ (t.fileAt p).isSome) := by
  simp only [fileSystem, decide_eq_true_eq]

theorem fileAt_eq_some {c : List UInt8} : t.fileAt p = some c ↔
    t.node (pathNames [] p) = some (.file c) ∧ p.getLast? ≠ some slash := by
  unfold fileAt
  cases hnode : t.node (pathNames [] p) with
  | none => simp
  | some n =>
    cases n with
    | dir => simp
    | file content => simp [and_comm]

/-- What `mkdir` does to the nodes. -/
theorem node_of_mkdir (h : fileSystem.mkdir t p = some t') :
    p ≠ [] ∧ t.node (pathNames [] p) = none ∧
      t'.node = Function.update t.node (pathNames [] p) (some .dir) := by
  simp only [fileSystem, Option.dite_none_right_eq_some, Option.some.injEq] at h
  obtain ⟨⟨hfree, hnone⟩, rfl⟩ := h
  refine ⟨?_, hnone, rfl⟩
  rintro rfl
  exact hfree.1 t.root

/-- What writing does to the nodes. -/
theorem node_of_write {b : List UInt8} (h : fileSystem.write t p b = some t') :
    p ≠ [] ∧ t.node (pathNames [] p) ≠ some .dir ∧ p.getLast? ≠ some slash ∧
      t'.node = Function.update t.node (pathNames [] p) (some (.file b)) := by
  simp only [fileSystem, Option.dite_none_right_eq_some, Option.some.injEq] at h
  obtain ⟨⟨hfree, hlast⟩, rfl⟩ := h
  refine ⟨?_, hfree.1, hlast, rfl⟩
  rintro rfl
  exact hfree.1 t.root

/-- A node that is no longer what it was is at the path. -/
theorem access_of_update {names : List (List UInt8)} {n : PathNode}
    (hnode : t'.node = Function.update t.node names (some n)) (hfree : t.node names ≠ some .dir)
    (hkeep : n ≠ .dir ∨ t.node names = none) (h : fileSystem.access t q = true) :
    fileSystem.access t' q = true := by
  rw [access_iff] at h ⊢
  obtain ⟨hq, h⟩ := h
  refine ⟨hq, ?_⟩
  by_cases hsame : pathNames [] q = names
  · -- the path is the one of the new node, where a file stays a file
    rcases h with hdir | hfile
    · exact absurd (hsame ▸ hdir) hfree
    · obtain ⟨c, hc⟩ := Option.isSome_iff_exists.mp hfile
      obtain ⟨hc, hlast⟩ := fileAt_eq_some.mp hc
      right
      cases n with
      | dir => simp_all
      | file b =>
        have hb : t'.fileAt q = some b :=
          fileAt_eq_some.mpr ⟨by rw [hnode, hsame, Function.update_self], hlast⟩
        rw [hb]
        rfl
  · -- any other path is as it was
    have heq : t'.node (pathNames [] q) = t.node (pathNames [] q) := by
      rw [hnode, Function.update_of_ne hsame]
    have hfile : t'.fileAt q = t.fileAt q := by unfold fileAt; rw [heq]
    rwa [heq, hfile]

/-- In front of a slash there is a directory. -/
theorem node_of_access (h : fileSystem.access t (p ++ slash :: q) = true) :
    t.node (pathNames [] p) = some .dir := by
  obtain ⟨-, h⟩ := access_iff.mp h
  rw [pathNames_append_slash] at h
  by_cases hq : pathNames [] q = []
  · rw [hq, List.append_nil] at h
    rcases h with hdir | hfile
    · exact hdir
    · obtain ⟨c, hc⟩ := Option.isSome_iff_exists.mp hfile
      -- a file is named last, and here only slashes follow
      have hlast := (fileAt_eq_some.mp hc).2
      cases q with
      | nil => simp at hlast
      | cons b rest =>
        refine absurd hq (pathNames_ne_nil (.inl (List.cons_ne_nil _ _)) ?_)
        simpa using hlast
  · refine node_of_append hq ?_
    rcases h with hdir | hfile
    · rw [hdir]
      simp
    · obtain ⟨c, hc⟩ := Option.isSome_iff_exists.mp hfile
      rw [← pathNames_append_slash, (fileAt_eq_some.mp hc).1]
      simp

theorem lawful : fileSystem.Lawful where
  access_nil t := by simp [fileSystem]
  access_of_dirAt h := by
    obtain ⟨⟨hp, hdir⟩, -⟩ := dirAt_iff.mp h
    exact access_iff.mpr ⟨hp, .inl hdir⟩
  dirAt_root t := by
    rw [dirAt_iff.mpr ⟨⟨List.cons_ne_nil _ _, t.root⟩, rfl⟩]
    rfl
  dirAt_slash {t p} hp := by
    have hnames : pathNames [] (p ++ [slash]) = pathNames [] p := by
      rw [pathNames_append_slash]
      exact List.append_nil _
    simp only [fileSystem, hnames, hp, List.append_ne_nil_of_left_ne_nil hp, ne_eq,
      not_false_eq_true, true_and]
  dirAt_of_access {t p q} hp h := by
    rw [dirAt_iff.mpr ⟨⟨hp, node_of_access h⟩, rfl⟩]
    rfl
  -- the new directory is the one at the names of the path, and no other changes
  mkdir_dirAt {t t' p} h := by
    obtain ⟨hp, -, hnode⟩ := node_of_mkdir h
    refine ⟨pathNames [] p, dirAt_iff.mpr ⟨⟨hp, by rw [hnode, Function.update_self]⟩, rfl⟩, ?_⟩
    ext names
    simp only [fileSystem, hnode, Set.mem_ofPred_eq, Set.mem_insert_iff]
    by_cases hnames : names = pathNames [] p
    · simp [hnames]
    · simp [hnames]
  -- a directory that was there is another one, as nothing was at the path
  dirAt_mkdir {t t' p q d} h hdir := by
    obtain ⟨-, hnone, hnode⟩ := node_of_mkdir h
    obtain ⟨⟨hq, hq'⟩, rfl⟩ := dirAt_iff.mp hdir
    have hne : pathNames [] q ≠ pathNames [] p := fun hsame => by
      rw [← hsame, hq'] at hnone
      cases hnone
    refine dirAt_iff.mpr ⟨⟨hq, ?_⟩, rfl⟩
    rw [hnode, Function.update_of_ne hne, hq']
  -- nothing was at the path, so all that could be reached still can
  access_mkdir {t t' p q} h hacc := by
    obtain ⟨-, hnone, hnode⟩ := node_of_mkdir h
    exact access_of_update hnode (by simp [hnone]) (.inr hnone) hacc
  -- what is reached after the write was there before, or is the file itself
  access_write {t t' p q b} h hacc := by
    obtain ⟨hp, hfree, hlast, hnode⟩ := node_of_write h
    rcases hacc with rfl | hacc
    · refine access_iff.mpr ⟨hp, .inr ?_⟩
      rw [fileAt_eq_some.mpr ⟨by rw [hnode, Function.update_self], hlast⟩]
      rfl
    · exact access_of_update hnode hfree (.inl (by simp)) hacc
  read_write {t t' p b} h := by
    obtain ⟨-, -, hlast, hnode⟩ := node_of_write h
    exact fileAt_eq_some.mpr ⟨by rw [hnode, Function.update_self], hlast⟩

end Lawful

end PathTree
