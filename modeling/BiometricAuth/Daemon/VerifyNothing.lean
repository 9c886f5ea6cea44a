import BiometricAuth.Daemon.Handlers
import BiometricAuth.Driver.Budget

/-!
# Verify without a template

What a Verify request does when `bio_sto_get_feature_info` lists nothing for the user and the
index: `community_ops_verify` takes the first sample of the first feature without looking whether
there is one.

Main result: `handlesNothing_iff`.
-/

namespace BiometricAuth

open Process World

variable {π : Type} {fp : Libfprint π} {w : World π}

/-- The list for the user and the index has no first sample. -/
def ListsNothing (w : World π) (uid idx : ℤ) : Prop :=
  ∃ infos, bioStoGetFeatureInfo w.uuidOf w.store.db (w.dev.query uid idx idx) = some infos ∧
    (infos.head?.bind fun info => info.samples.head?) = none

/-- No match is started on the way from `w` to `w'`. -/
def StartsNoMatch (w w' : World π) : Prop :=
  ∃ calls, w'.trace = w.trace ++ calls ∧ ∀ print, FpCall.deviceVerify print ∉ calls

/-- When nothing is listed a Verify neither crashes nor starts a match, and it does not reply with
success, whatever happens while it runs. -/
def HandlesNothing (fp : Libfprint π) (w : World π) (uid idx : ℤ) : Prop :=
  ListsNothing w uid idx → ∀ admission es,
    match (Request.verify uid idx).serve fp admission w es with
    | .crashed _ => False
    | .waiting w' => StartsNoMatch w w'
    | .ret replies w' _ => StartsNoMatch w w' ∧ ∀ reply ∈ replies, reply.ret ≠ -retOpsSuccess

theorem verifyTemplate_of_listsNothing {uid idx : ℤ} (h : ListsNothing w uid idx) :
    verifyTemplate w uid idx = none := by
  obtain ⟨infos, hinfos, hnone⟩ := h
  rw [Option.eq_none_iff_forall_ne_some]
  intro data hdata
  obtain ⟨infos', hlist, hdata⟩ := Option.bind_eq_some_iff.mp hdata
  obtain rfl : infos = infos' :=
    Option.some.inj (hinfos.symm.trans (listFeatureInfo_eq_some_iff.mp hlist).1)
  obtain ⟨info, hinfo, hdata⟩ := Option.bind_eq_some_iff.mp hdata
  obtain ⟨sample, hsample, -⟩ := Option.bind_eq_some_iff.mp hdata
  rw [hinfo, Option.bind_some, hsample] at hnone
  cases hnone

/-- The device is open after the first sleep. -/
def World.opened (w : World π) : World π :=
  ((w.setAsynRunning.setCtrlFlag .running).startOpen.complete.onDeviceOpened true).setOpened

theorem communityOpsOpen_opened (henable : w.dev.enable = true) (es : List (List (Event π))) :
    communityOpsOpen fp w ([.deviceOpened true] :: es) = .ret 0 w.opened es := by
  refine (communityOpsOpen_eq_ret fp henable).mpr ⟨.done, _, ?_, .inl ⟨rfl, rfl, rfl⟩⟩
  rw [Poller.poll]
  rfl

variable (fp) in
/-- With nothing listed the operation of an enabled device crashes. -/
theorem communityOpsVerify_crashes {uid idx : ℤ} (henable : w.dev.enable = true)
    (h : ListsNothing w uid idx) (es : List (List (Event π))) :
    ∃ w', communityOpsVerify fp uid idx w.opened es = .crashed w' := by
  have hnone : verifyTemplate w.opened uid idx = none := verifyTemplate_of_listsNothing h
  have henable' : w.opened.dev.enable = true := henable
  simp only [communityOpsVerify, Proc.get_bind, henable', Bool.true_eq_false, if_false,
    Proc.modify_bind, hnone]
  exact ⟨_, rfl⟩

variable (fp) in
/-- So does the request. -/
theorem serve_verify_crashes {uid idx : ℤ} (henable : w.dev.enable = true)
    (h : ListsNothing w uid idx) :
    ∃ w', (Request.verify uid idx).serve fp .admitted w [[.deviceOpened true]] = .crashed w' := by
  obtain ⟨w', hcrash⟩ := communityOpsVerify_crashes fp henable h []
  have hops : bioOpsVerify fp uid idx w [[.deviceOpened true]] = .crashed w' := by
    simp only [bioOpsVerify, bioOps, Proc.get_bind, henable, Bool.true_eq_false, if_false]
    rw [Proc.bind_apply, communityOpsOpen_opened henable]
    simp only [if_true]
    rw [Proc.bind_apply, hcrash]
  refine ⟨w', ?_⟩
  rw [Request.serve, Proc.bind_apply]
  have hrun : (Request.verify uid idx).run fp w [[.deviceOpened true]] = .crashed w' := by
    change (bioOpsVerify fp uid idx >>= fun r => pure (OpValue.ret r)) w [[.deviceOpened true]] = _
    rw [Proc.bind_apply, hops]
  rw [hrun]

/-- A request that does not come to the device, or to a disabled one, replies with an error. -/
theorem serve_verify_refused (uid idx : ℤ) {admission : Admission} (es : List (List (Event π)))
    (h : admission = .admitted → w.dev.enable = false) :
    ∃ reply w', (Request.verify uid idx).serve fp admission w es = .ret [reply] w' es ∧
      w'.trace = w.trace ∧ reply.ret ≠ -retOpsSuccess := by
  cases admission with
  | permissionDenied | noSuchDevice | deviceBusy =>
    -- the request does not come to the driver
    exact ⟨_, w, rfl, rfl, by simp [Request.refused, Reply.ret]⟩
  | admitted =>
    -- the driver's guard turns the call down, and leaves its result
    set w' : World π :=
      { w with
        dev := ((w.dev.setDevStatus devsCommDisable).setOpsResult opsCommError).setNotifyMid
          notifyCommDisable } with hw'
    have hops : bioOpsVerify fp uid idx w es = .ret (-1) w' es := by
      simp only [bioOpsVerify, bioOps, Proc.get_bind, h rfl, if_true, Proc.modify_bind]
      rfl
    have hrun : (Request.verify uid idx).run fp w es = .ret (.ret (-1)) w' es := by
      change (bioOpsVerify fp uid idx >>= fun r => pure (OpValue.ret r)) w es = _
      rw [Proc.bind_apply, hops]
      rfl
    -- the reply is read off that result, which is not a match
    refine ⟨Reply.code (Request.matchCode opsVerifyMatch opsVerifyNoMatch w'.dev.opsResult), w', ?_,
      rfl, ?_⟩
    · rw [Request.serve, Proc.bind_apply, hrun]
      rfl
    · simp [hw', Reply.ret, Request.matchCode, BioDev.setOpsResult, BioDev.setDevStatus,
        BioDev.setNotifyMid]

/-- A Verify handles the empty list only where it does not get there: on a disabled device, or
when something is listed. -/
theorem handlesNothing_iff (fp : Libfprint π) (w : World π) (uid idx : ℤ) :
    HandlesNothing fp w uid idx ↔ w.dev.enable = false ∨ ¬ ListsNothing w uid idx := by
  constructor
  · intro h
    by_contra hnot
    obtain ⟨henable, hnothing⟩ := not_or.mp hnot
    rw [Bool.not_eq_false] at henable
    have hnothing := not_not.mp hnothing
    obtain ⟨w', hcrash⟩ := serve_verify_crashes fp henable hnothing
    have hsafe := h hnothing .admitted [[.deviceOpened true]]
    rw [hcrash] at hsafe
    exact hsafe
  · rintro (henable | hlisted) hnothing
    · intro admission es
      obtain ⟨reply, w', hserve, htrace, hreply⟩ :=
        serve_verify_refused uid idx es fun _ : admission = .admitted => henable
      rw [hserve]
      refine ⟨⟨[], by rw [htrace, List.append_nil], by simp⟩, fun reply' hmem => ?_⟩
      rwa [List.mem_singleton.mp hmem]
    · exact absurd hnothing hlisted

/-- On an empty database every Verify crashes the daemon. -/
theorem not_handlesNothing_empty : ¬ HandlesNothing bytesLibfprint idleWorld 1000 0 := by
  intro h
  have hnothing : ListsNothing idleWorld 1000 0 := ⟨[], rfl, rfl⟩
  obtain ⟨w', hcrash⟩ := serve_verify_crashes bytesLibfprint rfl hnothing
  have hsafe := h hnothing .admitted [[.deviceOpened true]]
  rw [hcrash] at hsafe
  exact hsafe

end BiometricAuth
