import BiometricAuth.Driver.Frame
import BiometricAuth.Storage.UserFeatures

/-!
# Verify

`ops_result` is `OPS_VERIFY_MATCH` after a `bio_ops_verify` only if libfprint has
reported a match on the way, with the template the driver had handed to it:
open overwrites what an earlier operation has left, every other assignment is of
another value, and close leaves the result alone or reports its own failure.

`Template` says where the template comes from, `VerifyAccepted` what has happened
when a verify succeeds. Main result: `bioOpsVerify_spec`.
-/

namespace BiometricAuth

open Process World

section Verify

variable {π : Type} {fp : Libfprint π} {w w' : World π} {es es' : List (List (Event π))}

/-- `print` was decoded from a row of the user's with his current UUID, the device and the
index `idx`. -/
def Template (fp : Libfprint π) (w : World π) (uid idx : ℤ) (print : π) : Prop :=
  ∃ r ∈ w.store.db.rows, r.uid = uid ∧ r.uuid = some (w.uuidOf uid) ∧
    r.bioType = w.dev.biotype.code ∧ r.driver = w.dev.deviceName ∧ r.eigenIndex = idx ∧
    (decodeTemplate w.priv.aesKey r.toSample).bind fp.deserialize = some print

/-- Among `calls`, a template of the user's was handed to `fp_device_verify`, and then
`on_match_cb_verify` was called with a match and without an error. -/
def VerifyAccepted (fp : Libfprint π) (w : World π) (uid idx : ℤ) (calls : List (FpCall π)) :
    Prop :=
  ∃ print, Template fp w uid idx print ∧ ∃ matched,
    List.Sublist [.deviceVerify print, .onMatchCbVerify (.matched matched)] calls

/-- Where the template of `community_ops_verify` comes from. -/
theorem exists_row_of_verifyTemplate {uid idx : ℤ} {data : Bytes} (huid : 0 ≤ uid)
    (hidx : 0 ≤ idx) (h : verifyTemplate w uid idx = some data) :
    ∃ r ∈ w.store.db.rows, r.uid = uid ∧ r.uuid = some (w.uuidOf uid) ∧
      r.bioType = w.dev.biotype.code ∧ r.driver = w.dev.deviceName ∧ r.eigenIndex = idx ∧
      decodeTemplate w.priv.aesKey r.toSample = some data := by
  simp only [verifyTemplate, Option.bind_eq_bind, Option.bind_eq_some_iff] at h
  obtain ⟨infos, hlist, info, hinfo, sample, hsample, hdata⟩ := h
  have hinfos := (listFeatureInfo_eq_some_iff.mp hlist).1
  have hbio := w.dev.biotype.code_nonneg
  obtain ⟨r, hr, hselects, huuid, rfl⟩ :=
    exists_row_of_mem_samples (by simp only [BioDev.query]; omega) hbio hinfos
      (List.mem_of_mem_head? hinfo) (List.mem_of_mem_head? hsample)
  obtain ⟨hstart, hruid, hrbio, hdriver, hend⟩ := FeatureQuery.selects_iff.mp hselects
  simp only [BioDev.query] at hstart hruid hrbio hdriver hend
  have hruid : r.uid = uid := hruid.resolve_left (by omega)
  rw [hruid] at huuid
  exact ⟨r, hr, hruid, huuid, hrbio.resolve_left (by omega), hdriver _ rfl,
    le_antisymm (hend.resolve_left (by omega)) hstart, hdata⟩

/-! ### While the driver waits for a match -/

/-- `fp_device_verify` has been called after `w₀`, and the result is a match only if it
was reported since. -/
structure VerifyInv (w₀ : World π) (print : π) (w : World π) : Prop where
  config : SameConfig w₀ w
  store : w.store = w₀.store
  pending : w.pending = some .deviceVerify ∨ w.pending = none
  reported : ∃ calls, w.trace = w₀.trace ++ .deviceVerify print :: calls ∧
    (w.dev.opsResult = opsVerifyMatch → ∃ matched, .onMatchCbVerify (.matched matched) ∈ calls)

variable {w₀ : World π} {print : π}

/-- A match report keeps the invariant. -/
theorem VerifyInv.onMatchCbVerify (h : VerifyInv w₀ print w) (report : MatchReport π) :
    VerifyInv w₀ print (w.onMatchCbVerify report) := by
  obtain ⟨calls, htrace, hreported⟩ := h.reported
  have hframe := onMatchCbVerify_frame w report
  -- the callback leaves the table alone
  have hstore : (w.onMatchCbVerify report).store = w₀.store :=
    (hframe.store (by rcases h.pending with hp | hp <;> simp [hp])).trans h.store
  have hpending : (w.onMatchCbVerify report).pending = w.pending := by
    cases report <;> rfl
  -- the trace grows by the report
  have htrace' : (w.onMatchCbVerify report).trace =
      w₀.trace ++ .deviceVerify print :: (calls ++ [.onMatchCbVerify report]) := by
    cases report <;> simp [World.onMatchCbVerify, htrace]
  refine ⟨h.config.trans hframe.config, hstore, hpending ▸ h.pending, _, htrace', ?_⟩
  cases report with
  | error =>
    -- an error leaves the result, and with it the match that was there
    intro hresult
    obtain ⟨matched, hmem⟩ := hreported hresult
    exact ⟨matched, List.mem_append_left _ hmem⟩
  | noMatch =>
    intro hresult
    -- a mismatch is not the result of a match
    have hresult : opsVerifyNoMatch = opsVerifyMatch := hresult
    exact absurd hresult (by decide)
  | matched matched => exact fun _ => ⟨matched, by simp⟩

/-- So does every event. -/
theorem VerifyInv.deliver (h : VerifyInv w₀ print w) {e : Event π}
    (he : w.deliver fp e = some w') : VerifyInv w₀ print w' := by
  have hframe := deliver_frame he
  have hconfig := h.config.trans hframe.config
  have hstore : w'.store = w₀.store :=
    (hframe.store (by rcases h.pending with hp | hp <;> simp [hp])).trans h.store
  -- verify is pending, or has ended
  have hpending : w'.pending = some .deviceVerify ∨ w'.pending = none := by
    rcases hframe.pending with hp | hp
    · exact hp ▸ h.pending
    · exact Or.inr hp
  rcases deliver_cases he with rfl | rfl | ⟨async, hasync, hcallback⟩
  · -- an event that is nobody's
    exact h
  · -- a stop
    exact ⟨hconfig, hstore, hpending, by simpa using h.reported⟩
  · -- a callback of verify, the only one that is pending
    obtain rfl : async = .deviceVerify := by
      rcases h.pending with hp | hp
      · exact Option.some.inj (hasync.symm.trans hp)
      · rw [hp] at hasync
        cases hasync
    cases e with
    | matchReport report =>
      simp only [World.deliver, hasync, Option.some.injEq] at he
      exact he ▸ h.onMatchCbVerify report
    | verifyCompleted =>
      simp only [World.deliver, hasync, if_true, Option.some.injEq] at he
      subst he
      exact ⟨hconfig, hstore, hpending, h.reported⟩
    | _ => simp [callbackOf] at hcallback

/-- And a stop request that the loop takes note of. -/
theorem VerifyInv.stop (h : VerifyInv w₀ print w) : VerifyInv w₀ print ((opPoller fp).stop w) := by
  obtain ⟨calls, htrace, -⟩ := h.reported
  refine ⟨h.config.trans ⟨rfl, rfl, rfl, rfl⟩, h.store, h.pending, calls, htrace, fun hresult => ?_⟩
  have hstopped : w.dev.devStatus.tdiv 100 * 100 + 3 = 300 := hresult
  omega

/-- The invariant at the end of the loop. -/
theorem poll_verifyInv {exit : Exit} (h : VerifyInv w₀ print w)
    (hpoll : (opPoller fp).poll w es = .ret exit w' es') : VerifyInv w₀ print w' := by
  have hexit := Poller.poll_invariant (P := VerifyInv w₀ print) (Q := VerifyInv w₀ print)
    (fun _ _ _ hs he => hs.deliver he)
    (fun s hs _ => ⟨hs.config.trans ⟨rfl, rfl, rfl, rfl⟩, hs.store, hs.pending, hs.reported⟩)
    (fun s hs _ => hs.stop) (fun _ _ _ hs he => hs.deliver he) h hpoll
  have hinv := hexit.1
  rwa [ite_self] at hinv

/-! ### The operation -/

/-- `community_ops_verify` on an enabled device that holds no earlier match. -/
theorem communityOpsVerify_spec {uid idx r : ℤ} (henable : w.dev.enable = true)
    (hresult : w.dev.opsResult ≠ opsVerifyMatch)
    (h : communityOpsVerify fp uid idx w es = .ret r w' es') :
    SameConfig w w' ∧ ∃ calls, w'.trace = w.trace ++ calls ∧
      (w'.dev.opsResult = opsVerifyMatch → ∃ data print matched,
        verifyTemplate w uid idx = some data ∧ fp.deserialize data = some print ∧
        List.Sublist [.deviceVerify print, .onMatchCbVerify (.matched matched)] calls) := by
  simp only [communityOpsVerify, Proc.get_bind, henable, Bool.true_eq_false, if_false,
    Proc.modify_bind, Proc.bind_eq_ret, Proc.ofOption_eq_ret] at h
  -- the template is read, and libfprint is called with its print
  obtain ⟨data, w₁, es₁, ⟨hdata, rfl, rfl⟩, h⟩ := h
  cases hprint : fp.deserialize data with
  | none =>
    rw [hprint] at h
    obtain ⟨-, rfl, -⟩ := Proc.pure_eq_ret.mp h
    exact ⟨⟨rfl, rfl, rfl, rfl⟩, [], (List.append_nil _).symm, fun hm => absurd hm hresult⟩
  | some print =>
    rw [hprint] at h
    simp only [Proc.modify_bind] at h
    obtain ⟨exit, w₂, es₂, hawait, h⟩ := Proc.bind_eq_ret.mp h
    obtain ⟨w₃, hpoll, rfl⟩ := awaitCompletion_eq_ret.mp hawait
    have hinv : VerifyInv w print w₃ := by
      refine poll_verifyInv ?_ hpoll
      exact ⟨⟨rfl, rfl, rfl, rfl⟩, rfl, Or.inl rfl, [], rfl, fun hm => absurd hm hresult⟩
    obtain ⟨calls, htrace, hreported⟩ := hinv.reported
    -- the match that is reported is one with this print
    have haccepted : w₃.dev.opsResult = opsVerifyMatch → ∃ data template matched,
        verifyTemplate w uid idx = some data ∧ fp.deserialize data = some template ∧
        List.Sublist [.deviceVerify template, .onMatchCbVerify (.matched matched)]
          (.deviceVerify print :: calls) := by
      intro hm
      obtain ⟨matched, hmem⟩ := hreported hm
      exact ⟨data, print, matched, hdata, hprint, (List.singleton_sublist.mpr hmem).cons_cons _⟩
    -- only a timeout changes the result behind the loop, and not to a match
    cases exit with
    | done =>
      cases h
      exact ⟨hinv.config.trans ⟨rfl, rfl, rfl, rfl⟩, _, htrace, fun hm => haccepted hm⟩
    | timeout =>
      cases h
      refine ⟨hinv.config.trans ⟨rfl, rfl, rfl, rfl⟩, _, htrace, fun hm => ?_⟩
      have hm : opsVerifyTimeout = opsVerifyMatch := hm
      exact absurd hm (by decide)
    | stopped =>
      cases h
      exact ⟨hinv.config, _, htrace, fun hm => haccepted hm⟩

/-- After `bio_ops_verify` the result is a match only if libfprint has reported one for a
template of the user's. -/
theorem bioOpsVerify_spec {uid idx r : ℤ} (huid : 0 ≤ uid) (hidx : 0 ≤ idx)
    (h : bioOpsVerify fp uid idx w es = .ret r w' es')
    (hmatch : w'.dev.opsResult = opsVerifyMatch) :
    ∃ calls, w'.trace = w.trace ++ calls ∧ VerifyAccepted fp w uid idx calls := by
  cases henable : w.dev.enable with
  | false =>
    simp only [bioOpsVerify, bioOps, Proc.get_bind, henable, if_true, Proc.modify_bind] at h
    cases h
    -- a disabled device reports an error
    exact absurd hmatch (by simp [BioDev.setOpsResult, BioDev.setDevStatus, BioDev.setNotifyMid])
  | true =>
    obtain ⟨r₁, w₁, es₁, w₂, es₂, hopen, hop, hclose⟩ := (bioOps_eq_ret henable).mp h
    obtain ⟨hconfig, hstore, htrace, hopened⟩ := communityOpsOpen_spec henable hopen
    -- open has succeeded: a match is the result of the verification, as close only has failures of
    -- its own
    rcases hopened with ⟨rfl, hresult⟩ | ⟨rfl, hresult⟩
    · rw [if_pos rfl] at hop
      have henable₁ := hconfig.enable.trans henable
      obtain ⟨hconfig₂, calls, htrace₂, haccepted⟩ :=
        communityOpsVerify_spec henable₁ (by rw [hresult]; decide) hop
      obtain ⟨-, -, htrace', hclosed⟩ :=
        communityOpsClose_spec (hconfig₂.enable.trans henable₁) hclose
      rcases hclosed with hclosed | hclosed
      · obtain ⟨data, print, matched, hdata, hprint, hcalls⟩ :=
          haccepted (hclosed.symm.trans hmatch)
        obtain ⟨row, hrow, hruid, huuid, hbio, hdriver, hindex, hdecode⟩ :=
          exists_row_of_verifyTemplate huid hidx hdata
        refine ⟨.deviceOpen :: calls ++ [.deviceClose], ?_, print, ?_, matched, ?_⟩
        · rw [htrace', htrace₂, htrace]
          simp
        · rw [hstore] at hrow
          rw [hconfig.uuidOf] at huuid
          rw [hconfig.biotype] at hbio
          rw [hconfig.deviceName] at hdriver
          rw [hconfig.aesKey] at hdecode
          exact ⟨row, hrow, hruid, huuid, hbio, hdriver, hindex, by simp [hdecode, hprint]⟩
        · exact (hcalls.cons _).trans (List.sublist_append_left _ _)
      · rw [hclosed] at hmatch
        exact absurd hmatch (by decide)
    · -- open has failed, and no later step makes it a match
      rw [if_neg (by decide)] at hop
      obtain ⟨-, rfl, rfl⟩ := hop
      obtain ⟨-, -, -, hclosed⟩ :=
        communityOpsClose_spec (hconfig.enable.trans henable) hclose
      rw [hmatch, hresult] at hclosed
      exact absurd hclosed (by decide)

end Verify

end BiometricAuth
