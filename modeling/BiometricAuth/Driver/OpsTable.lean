import BiometricAuth.Common.DriverOps
import BiometricAuth.Driver.Frame

/-!
# The operations of the community driver as a table

`ops_configure` of the community driver fills the table of `bio_dev`: `uru4000Ops` is what it
puts there for the `uru4000` reader. Its functions sleep, so they run on the state of the driver
together with the schedule that is left (`DriverRun`).

Main results: `bioOps*_agrees` — called through the table, the functions of the framework do what
the `bioOps*` of `BiometricAuth.Driver.Ops` do.
-/

namespace BiometricAuth

open Process

section OpsTable

variable {π α β : Type}

/-- The state of the driver, and what is going to happen while it sleeps. -/
abbrev DriverRun (π : Type) := World π × List (List (Event π))

instance deviceStateRun : DeviceState (DriverRun π) where
  dev s := s.1.dev
  setDev s d := ({ s.1 with dev := d }, s.2)
  store s := s.1.store
  setStore s c := ({ s.1 with store := c }, s.2)
  uuidOf s := s.1.uuidOf
  dev_setDev _ _ := rfl
  store_setDev _ _ := rfl
  uuidOf_setDev _ _ := rfl
  dev_setStore _ _ := rfl
  store_setStore _ _ := rfl

/-- A program of the driver as a function in the table. -/
def driverFun (p : Driver π α) : DriverFun (DriverRun π) α := fun s =>
  match p s.1 s.2 with
  | .ret a w es => some (a, (w, es))
  | .waiting _ => none
  | .crashed _ => none

theorem driverFun_eq_some {p : Driver π α} {s s' : DriverRun π} {a : α} :
    driverFun p s = some (a, s') ↔ p s.1 s.2 = .ret a s'.1 s'.2 := by
  rw [driverFun]
  cases p s.1 s.2 with
  | ret b w es => simp only [Option.some.injEq, Outcome.ret.injEq, Prod.ext_iff]
  | waiting w | crashed w => simp

variable (fp : Libfprint π)

/-- The table of the `uru4000` reader. -/
def uru4000Ops : DriverOps (DriverRun π) where
  opsOpen := some (driverFun (communityOpsOpen fp))
  opsClose := some (driverFun (communityOpsClose fp))
  opsCapture := some (driverFun (communityOpsCapture fp))
  opsEnroll := some fun uid idx idxName => driverFun (communityOpsEnroll fp uid idx idxName)
  opsVerify := some fun uid idx => driverFun (communityOpsVerify fp uid idx)
  opsIdentify := some fun uid idxStart idxEnd =>
    driverFun (communityOpsIdentify fp uid idxStart idxEnd)
  opsSearch := some fun uid idxStart idxEnd =>
    driverFun (communityOpsSearch fp uid idxStart idxEnd)
  opsClean := some fun uid idxStart idxEnd => driverFun (communityOpsClean uid idxStart idxEnd)
  opsGetFeatureList := some fun uid idxStart idxEnd =>
    driverFun (communityOpsGetFeatureList uid idxStart idxEnd)
  opsFeatureRename := none

/-! ### Functions of the framework and programs of the driver -/

/-- The function of the framework does what the program does, from one state on, but for the
record of the calls. -/
def AgreesAt (f : Framework (DriverRun π) α) (p : Driver π α) (w : World π)
    (es : List (List (Event π))) : Prop :=
  ∀ calls, (f ((w, es), calls)).map (fun r => (r.1, r.2.1)) = driverFun p (w, es)

namespace AgreesAt

variable {fp} {f : Framework (DriverRun π) α} {p : Driver π α} {w : World π}
  {es : List (List (Event π))}

theorem pure (a : α) (w : World π) (es : List (List (Event π))) :
    AgreesAt (Pure.pure a) (Pure.pure a) w es := fun _ => rfl

theorem callDriver (op : DriverOp) (p : Driver π α) (w : World π)
    (es : List (List (Event π))) :
    AgreesAt (BiometricAuth.callDriver op (some (driverFun p))) p w es := by
  intro calls
  show ((driverFun p (w, es)).bind _).map _ = _
  cases driverFun p (w, es) <;> rfl

/-- A sequence: the second parts agree wherever the first program returns. -/
theorem bind {g : α → Framework (DriverRun π) β} {q : α → Driver π β} (hf : AgreesAt f p w es)
    (hg : ∀ a w' es', p w es = .ret a w' es' → AgreesAt (g a) (q a) w' es') :
    AgreesAt (f >>= g) (p >>= q) w es := by
  intro calls
  have hfw := hf calls
  rw [Framework.bind_apply]
  unfold driverFun at hfw ⊢
  rw [Proc.bind_apply]
  cases hp : p w es with
  | ret a w' es' =>
    simp only [hp] at hfw
    obtain ⟨⟨a', s', calls'⟩, hret, heq⟩ := Option.map_eq_some_iff.mp hfw
    obtain ⟨rfl, rfl⟩ := Prod.mk.inj heq
    rw [hret]
    exact hg a' w' es' hp calls'
  | waiting w' | crashed w' =>
    simp only [hp, Option.map_eq_none_iff] at hfw
    rw [hfw]
    rfl

theorem getDev_bind {g : BioDev → Framework (DriverRun π) β} {q : World π → Driver π β}
    (h : AgreesAt (g w.dev) (q w) w es) : AgreesAt (getDev >>= g) (Proc.get >>= q) w es := h

theorem modifyDev_bind (d : BioDev → BioDev) {g : Unit → Framework (DriverRun π) β}
    {q : Unit → Driver π β} (h : AgreesAt (g ()) (q ()) { w with dev := d w.dev } es) :
    AgreesAt (modifyDev d >>= g) (Proc.modify (fun w => { w with dev := d w.dev }) >>= q) w es := h

theorem ite {c : Prop} [Decidable c] {g : Framework (DriverRun π) α} {q : Driver π α}
    (hf : c → AgreesAt f p w es) (hg : ¬ c → AgreesAt g q w es) :
    AgreesAt (if c then f else g) (if c then p else q) w es := by
  split
  next hc => exact hf hc
  next hc => exact hg hc

end AgreesAt

/-! ### The operations -/

/-- The common part of the operations. Open fails with `-1` only. -/
theorem bioOpsCall_agrees (op : DriverOp) (p : Driver π α) {failed : α} {unopened : ℤ → α}
    (hunopened : unopened (-1) = failed) (w : World π) (es : List (List (Event π))) :
    AgreesAt ((uru4000Ops fp).bioOpsCall op (some (driverFun p)) failed unopened)
      (bioOps fp failed p) w es := by
  unfold DriverOps.bioOpsCall bioOps
  refine .getDev_bind (.ite (fun _ => .modifyDev_bind _ (.pure _ _ _)) fun henable => ?_)
  refine .bind (.callDriver _ _ _ _) fun ret w₁ es₁ hopen => ?_
  have hclose : ∀ (value : α) w₂ es₂, AgreesAt
      (do callDriver .opsClose (uru4000Ops fp).opsClose; return value)
      (do communityOpsClose fp; return value) w₂ es₂ :=
    fun value w₂ es₂ => .bind (.callDriver _ _ _ _) fun _ _ _ _ => .pure _ _ _
  refine .ite (fun _ => ?_) fun hret => ?_
  · rw [if_pos (Option.isSome_some (a := driverFun p))]
    exact .bind (.callDriver _ _ _ _) fun value w₂ es₂ _ => hclose value w₂ es₂
  · obtain ⟨-, -, -, hopened⟩ :=
      communityOpsOpen_spec (Bool.eq_true_of_not_eq_false henable) hopen
    cases hopened with
    | inl hzero => exact absurd hzero.1 hret
    | inr hfailed =>
      rw [hfailed.1, hunopened]
      exact .bind (.pure _ _ _) fun value w₂ es₂ _ => hclose value w₂ es₂

section Operations

variable (w : World π) (es : List (List (Event π))) (uid idx idxStart idxEnd : ℤ) (name : String)

theorem bioOpsCapture_agrees : AgreesAt (uru4000Ops fp).bioOpsCapture (bioOpsCapture fp) w es :=
  .getDev_bind (.bind (bioOpsCall_agrees fp _ _ rfl _ _) fun _ _ _ _ => .pure _ _ _)

theorem bioOpsEnroll_agrees : AgreesAt ((uru4000Ops fp).bioOpsEnroll uid idx name)
    (bioOpsEnroll fp uid idx name) w es := bioOpsCall_agrees fp _ _ rfl _ _

theorem bioOpsVerify_agrees : AgreesAt ((uru4000Ops fp).bioOpsVerify uid idx)
    (bioOpsVerify fp uid idx) w es := bioOpsCall_agrees fp _ _ rfl _ _

theorem bioOpsIdentify_agrees : AgreesAt ((uru4000Ops fp).bioOpsIdentify uid idxStart idxEnd)
    (bioOpsIdentify fp uid idxStart idxEnd) w es := bioOpsCall_agrees fp _ _ rfl _ _

theorem bioOpsSearch_agrees : AgreesAt ((uru4000Ops fp).bioOpsSearch uid idxStart idxEnd)
    (bioOpsSearch fp uid idxStart idxEnd) w es := bioOpsCall_agrees fp _ _ rfl _ _

theorem bioOpsClean_agrees : AgreesAt ((uru4000Ops fp).bioOpsClean uid idxStart idxEnd)
    (bioOpsClean fp uid idxStart idxEnd) w es := bioOpsCall_agrees fp _ _ rfl _ _

/-- The list is asked for in the same way. -/
theorem bioOpsGetFeatureList_agrees :
    AgreesAt ((uru4000Ops fp).bioOpsGetFeatureList uid idxStart idxEnd)
      (bioOpsGetFeatureList fp uid idxStart idxEnd) w es := by
  unfold DriverOps.bioOpsGetFeatureList bioOpsGetFeatureList bioOps
  have hclose : ∀ (flist : List FeatureInfo) w₂ es₂, AgreesAt
      (do callDriver .opsClose (uru4000Ops fp).opsClose; return flist)
      (do communityOpsClose fp; return flist) w₂ es₂ :=
    fun flist w₂ es₂ => .bind (.callDriver _ _ _ _) fun _ _ _ _ => .pure _ _ _
  refine .getDev_bind (.ite (fun _ => .modifyDev_bind _ (.pure _ _ _)) fun _ => ?_)
  refine .bind (.callDriver _ _ _ _) fun ret w₁ es₁ _ => ?_
  refine .ite (fun _ => ?_) fun _ => ?_
  · exact .bind (.callDriver _ _ _ _) fun flist w₂ es₂ _ => hclose flist w₂ es₂
  · exact .bind (.pure _ _ _) fun flist w₂ es₂ _ => hclose flist w₂ es₂

/-- The driver has no function for a rename. -/
theorem bioOpsFeatureRename_agrees : AgreesAt ((uru4000Ops fp).bioOpsFeatureRename uid idx name)
    (bioOpsFeatureRename uid idx name) w es := by
  unfold bioOpsFeatureRename
  show AgreesAt (bioOpsDefaultRename uid idx name) _ w es
  -- the status is set, and then the table is written
  refine .modifyDev_bind (fun dev => dev.setDevAbsStatus devsRenameDoing) fun calls => ?_
  generalize ({ w with dev := w.dev.setDevAbsStatus devsRenameDoing } : World π) = w₁
  unfold driverFun
  rw [Framework.bind_apply, Proc.get_bind, Proc.bind_apply]
  cases hrename : bioCommFeatureRenameByDb w₁.uuidOf w₁.store w₁.dev uid idx name with
  | none =>
    -- where the rename is undefined, both are
    have hcrash : renameByDb uid idx name ((w₁, es), calls) = none := by
      show (bioCommFeatureRenameByDb w₁.uuidOf w₁.store w₁.dev uid idx name).map _ = _
      rw [hrename]
      rfl
    rw [hcrash]
    rfl
  | some r =>
    obtain ⟨ret, store⟩ := r
    -- where it is defined, the driver's table sees the same store
    have hdone : renameByDb uid idx name ((w₁, es), calls) =
        some (ret, (({ w₁ with store := store }, es), calls)) := by
      show (bioCommFeatureRenameByDb w₁.uuidOf w₁.store w₁.dev uid idx name).map _ = _
      rw [hrename]
      rfl
    rw [hdone]
    -- the result goes by the return value
    by_cases hret : ret = 0
    · simp only [Proc.ofOption_some, Option.bind_some, Proc.modify_bind, if_pos hret]
      rfl
    · simp only [Proc.ofOption_some, Option.bind_some, Proc.modify_bind, if_neg hret]
      rfl

end Operations

end OpsTable

end BiometricAuth
