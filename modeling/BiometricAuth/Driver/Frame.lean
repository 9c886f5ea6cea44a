import BiometricAuth.Driver.Ops

/-!
# What the operations leave alone

What the device is, its key and its timeout stay the same whatever happens
(`SameConfig`); the database changes only by an enroll that completes, or by
an operation that writes to it; `ops_result` is not touched while the driver
waits for open or close. From these facts about one event (`deliver_frame`,
`deliver_openClose`) follow the specifications of open and close, and
`bioOps_eq_ret`, by which a run of `bio_ops_*` is taken apart.
-/

namespace BiometricAuth

open Process World

/-- What a device is, without its state. -/
def BioDev.identity (dev : BioDev) : BioDev :=
  { dev with devStatus := 0, opsResult := 0, notifyMid := 0 }

section Frame

variable {π : Type} {fp : Libfprint π} {w w' : World π}

/-- The device, its key, its timeout and the users' UUIDs are the same. -/
structure SameConfig (w w' : World π) : Prop where
  identity : w'.dev.identity = w.dev.identity
  aesKey : w'.priv.aesKey = w.priv.aesKey
  timeoutMS : w'.priv.timeoutMS = w.priv.timeoutMS
  uuidOf : w'.uuidOf = w.uuidOf

namespace SameConfig

theorem refl (w : World π) : SameConfig w w := ⟨rfl, rfl, rfl, rfl⟩

theorem trans {w₁ w₂ w₃ : World π} (h : SameConfig w₁ w₂) (h' : SameConfig w₂ w₃) :
    SameConfig w₁ w₃ where
  identity := h'.identity.trans h.identity
  aesKey := h'.aesKey.trans h.aesKey
  timeoutMS := h'.timeoutMS.trans h.timeoutMS
  uuidOf := h'.uuidOf.trans h.uuidOf

theorem enable (h : SameConfig w w') : w'.dev.enable = w.dev.enable := by
  have h := congrArg BioDev.enable h.identity
  exact h

theorem biotype (h : SameConfig w w') : w'.dev.biotype = w.dev.biotype := by
  have h := congrArg BioDev.biotype h.identity
  exact h

theorem deviceName (h : SameConfig w w') : w'.dev.deviceName = w.dev.deviceName := by
  have h := congrArg BioDev.deviceName h.identity
  exact h

end SameConfig

/-! ### One event -/

/-- What an event can change at most. -/
structure EventFrame (w w' : World π) : Prop where
  config : SameConfig w w'
  store : w.pending ≠ some .deviceEnroll → w'.store = w.store
  trace : w.trace <+: w'.trace
  pending : w'.pending = w.pending ∨ w'.pending = none

theorem EventFrame.refl (w : World π) : EventFrame w w :=
  ⟨.refl w, fun _ => rfl, List.prefix_refl _, Or.inl rfl⟩

theorem communityOpsStopByUser_frame (w : World π) : EventFrame w w.communityOpsStopByUser := by
  unfold communityOpsStopByUser
  split
  · exact .refl w
  · exact ⟨⟨rfl, rfl, rfl, rfl⟩, fun _ => rfl, List.prefix_refl _, Or.inl rfl⟩

theorem onMatchCbVerify_frame (w : World π) (report : MatchReport π) :
    EventFrame w (w.onMatchCbVerify report) := by
  cases report <;>
    exact ⟨⟨rfl, rfl, rfl, rfl⟩, fun _ => rfl, List.prefix_append _ _, Or.inl rfl⟩

theorem onMatchCbIdentify_frame {report : MatchReport π}
    (h : onMatchCbIdentify fp w report = some w') : EventFrame w w' := by
  obtain ⟨uid, dev, rfl, hdev⟩ := exists_of_onMatchCbIdentify h
  rcases hdev with rfl | ⟨result, mid, rfl⟩ <;>
    exact ⟨⟨rfl, rfl, rfl, rfl⟩, fun _ => rfl, List.prefix_append _ _, Or.inl rfl⟩

theorem onMatchCbSearch_frame {report : MatchReport π}
    (h : onMatchCbSearch fp w report = some w') : EventFrame w w' := by
  obtain ⟨data, dev, ctrlFlag, rfl, hdev, -⟩ := exists_of_onMatchCbSearch h
  rcases hdev with rfl | rfl <;>
    exact ⟨⟨rfl, rfl, rfl, rfl⟩, fun _ => rfl, List.prefix_append _ _, Or.inl rfl⟩

theorem deliver_frame {e : Event π} (h : w.deliver fp e = some w') : EventFrame w w' := by
  cases deliver_inv h with
  | ignored => exact .refl w
  | stopByUser => exact communityOpsStopByUser_frame w
  | deviceOpened ok =>
    cases ok <;> exact ⟨⟨rfl, rfl, rfl, rfl⟩, fun _ => rfl, List.prefix_refl _, Or.inr rfl⟩
  | captureCompleted image =>
    cases image <;> exact ⟨⟨rfl, rfl, rfl, rfl⟩, fun _ => rfl, List.prefix_refl _, Or.inr rfl⟩
  | enrollProgress =>
    exact ⟨⟨rfl, rfl, rfl, rfl⟩, fun _ => rfl, List.prefix_refl _, Or.inl rfl⟩
  | enrollPrint data hpending =>
    -- the one callback that writes to the database
    exact ⟨⟨rfl, rfl, rfl, rfl⟩, fun hne => absurd hpending hne, List.prefix_refl _, Or.inr rfl⟩
  | verifyReport report => exact onMatchCbVerify_frame w report
  | identifyReport _ hreport => exact onMatchCbIdentify_frame hreport
  | searchReport _ hreport => exact onMatchCbSearch_frame hreport
  | deviceClosed | enrollError | serializeError | verifyCompleted | deviceIdentified =>
    exact ⟨⟨rfl, rfl, rfl, rfl⟩, fun _ => rfl, List.prefix_refl _, Or.inr rfl⟩

/-- While open or close is under way, or nothing, an event changes the flags and the
message at most. -/
theorem deliver_openClose {e : Event π} (h : w.deliver fp e = some w')
    (hpending : w.pending = some .deviceOpen ∨ w.pending = some .deviceClose ∨ w.pending = none) :
    w'.dev.opsResult = w.dev.opsResult ∧ w'.trace = w.trace := by
  -- an event that nobody waits for
  rcases deliver_cases h with rfl | rfl | ⟨async, hasync, hcallback⟩
  · exact ⟨rfl, rfl⟩
  · -- a stop
    exact ⟨communityOpsStopByUser_opsResult w, communityOpsStopByUser_trace w⟩
  · -- the callback of open, of close, or none is pending
    rw [hasync] at hpending
    rcases hpending with hp | hp | hp
    · obtain rfl := Option.some.inj hp
      cases e with
      | deviceOpened ok =>
        simp only [deliver, hasync, if_true, Option.some.injEq] at h
        subst h
        cases ok <;> exact ⟨rfl, rfl⟩
      | _ => simp [callbackOf] at hcallback
    · obtain rfl := Option.some.inj hp
      cases e with
      | deviceClosed =>
        simp only [deliver, hasync, if_true, Option.some.injEq] at h
        subst h
        exact ⟨rfl, rfl⟩
      | _ => simp [callbackOf] at hcallback
    · cases hp

/-! ### Polling -/

variable {es es' : List (List (Event π))} {exit : Exit}

/-- What holds while open or close is polled for. -/
structure OpenCloseInv (w₀ w : World π) : Prop where
  config : SameConfig w₀ w
  store : w.store = w₀.store
  trace : w.trace = w₀.trace
  opsResult : w.dev.opsResult = w₀.dev.opsResult
  pending : w.pending = some .deviceOpen ∨ w.pending = some .deviceClose ∨ w.pending = none

theorem OpenCloseInv.deliver {w₀ : World π} (h : OpenCloseInv w₀ w) {e : Event π}
    (he : w.deliver fp e = some w') : OpenCloseInv w₀ w' := by
  have hframe := deliver_frame he
  obtain ⟨hresult, htrace⟩ := deliver_openClose he h.pending
  have hne : w.pending ≠ some .deviceEnroll := by
    rcases h.pending with hp | hp | hp <;> simp [hp]
  refine ⟨h.config.trans hframe.config, (hframe.store hne).trans h.store, htrace.trans h.trace,
    hresult.trans h.opsResult, ?_⟩
  rcases hframe.pending with hp | hp
  · rw [hp]
    exact h.pending
  · exact Or.inr (Or.inr hp)

/-- Polling for open or close. -/
theorem poll_openPoller_inv
    (hpending : w.pending = some .deviceOpen ∨ w.pending = some .deviceClose)
    (h : (openPoller fp).poll w es = .ret exit w' es') : OpenCloseInv w w' := by
  have hinit : OpenCloseInv w w :=
    ⟨.refl w, rfl, rfl, rfl, hpending.elim Or.inl fun hp => Or.inr (Or.inl hp)⟩
  have hexit := Poller.poll_invariant (P := OpenCloseInv w) (Q := fun _ => False)
    (fun _ _ _ hs he => hs.deliver he)
    (fun s hs _ => ⟨hs.config.trans ⟨rfl, rfl, rfl, rfl⟩, hs.store, hs.trace, hs.opsResult,
      hs.pending⟩)
    (fun _ _ hstopping => by simp [openPoller] at hstopping) (fun _ _ _ hs _ => hs) hinit h
  rcases openPoller_exit fp h with rfl | rfl
  · exact hexit.1
  · exact hexit.1

/-! ### Open, close and `bio_ops_*` -/

/-- Open on an enabled device. -/
theorem communityOpsOpen_spec {r : ℤ} (henable : w.dev.enable = true)
    (h : communityOpsOpen fp w es = .ret r w' es') :
    SameConfig w w' ∧ w'.store = w.store ∧ w'.trace = w.trace ++ [.deviceOpen] ∧
      (r = 0 ∧ w'.dev.opsResult = opsOpenSuccess ∨ r = -1 ∧ w'.dev.opsResult = opsOpenFail) := by
  obtain ⟨exit, w₁, hpoll, hexit⟩ := (communityOpsOpen_eq_ret fp henable).mp h
  have hinv := poll_openPoller_inv (Or.inl rfl) hpoll
  have hstart : SameConfig w (w.setAsynRunning.setCtrlFlag .running).startOpen :=
    ⟨rfl, rfl, rfl, rfl⟩
  have hconfig : SameConfig w w₁ := hstart.trans hinv.config
  rcases hexit with ⟨rfl, rfl, rfl⟩ | ⟨rfl, rfl, rfl⟩
  · exact ⟨hconfig.trans ⟨rfl, rfl, rfl, rfl⟩, hinv.store, hinv.trace, Or.inl ⟨rfl, rfl⟩⟩
  · exact ⟨hconfig.trans ⟨rfl, rfl, rfl, rfl⟩, hinv.store, hinv.trace, Or.inr ⟨rfl, rfl⟩⟩

/-- Close on an enabled device. -/
theorem communityOpsClose_spec (henable : w.dev.enable = true)
    (h : communityOpsClose fp w es = .ret () w' es') :
    SameConfig w w' ∧ w'.store = w.store ∧ w'.trace = w.trace ++ [.deviceClose] ∧
      (w'.dev.opsResult = w.dev.opsResult ∨ w'.dev.opsResult = opsCloseFail) := by
  obtain ⟨exit, w₁, hpoll, hexit⟩ := (communityOpsClose_eq_ret fp henable).mp h
  have hinv := poll_openPoller_inv (Or.inr rfl) hpoll
  have hstart : SameConfig w w.setAsynRunning.startClose := ⟨rfl, rfl, rfl, rfl⟩
  have hconfig : SameConfig w w₁ := hstart.trans hinv.config
  rcases hexit with ⟨rfl, rfl⟩ | ⟨rfl, rfl⟩
  · exact ⟨hconfig.trans ⟨rfl, rfl, rfl, rfl⟩, hinv.store, hinv.trace, Or.inl hinv.opsResult⟩
  · exact ⟨hconfig.trans ⟨rfl, rfl, rfl, rfl⟩, hinv.store, hinv.trace, Or.inr rfl⟩

/-- Clean on an enabled device. -/
theorem communityOpsClean_spec {uid idxStart idxEnd ret : ℤ} (henable : w.dev.enable = true)
    (h : communityOpsClean uid idxStart idxEnd w es = .ret ret w' es') :
    SameConfig w w' ∧
      (ret = 0 ∧ w'.store.db = w.store.db.delete (w.dev.query uid idxStart idxEnd).deletes ∧
          w'.dev.opsResult = opsCleanSuccess ∨
        ret = -2 ∧ w'.store.db = w.store.db ∧ w'.dev.opsResult = opsCleanFail) := by
  simp only [communityOpsClean, Proc.get_bind, henable, Bool.true_eq_false, if_false] at h
  have hcases := bioStoCleanFeatureInfo_cases w.store (w.dev.query uid idxStart idxEnd)
  cases hclean : bioStoCleanFeatureInfo w.store (w.dev.query uid idxStart idxEnd) with
  | mk code store =>
  rw [hclean] at h hcases
  obtain ⟨rfl, hdb⟩ | ⟨rfl, hdb⟩ := hcases
  · obtain ⟨rfl, rfl, rfl⟩ := Outcome.ret.inj h
    exact ⟨⟨rfl, rfl, rfl, rfl⟩, .inr ⟨rfl, hdb, rfl⟩⟩
  · obtain ⟨rfl, rfl, rfl⟩ := Outcome.ret.inj h
    exact ⟨⟨rfl, rfl, rfl, rfl⟩, .inl ⟨rfl, hdb, rfl⟩⟩

/-- A `bio_ops_*` on an enabled device: open, the operation if that succeeded, close. -/
theorem bioOps_eq_ret {α : Type} {failed a : α} {op : Driver π α} (henable : w.dev.enable = true) :
    bioOps fp failed op w es = .ret a w' es' ↔
      ∃ r w₁ es₁ w₂ es₂, communityOpsOpen fp w es = .ret r w₁ es₁ ∧
        (if r = 0 then op w₁ es₁ = .ret a w₂ es₂ else a = failed ∧ w₂ = w₁ ∧ es₂ = es₁) ∧
        communityOpsClose fp w₂ es₂ = .ret () w' es' := by
  simp only [bioOps, Proc.get_bind, henable, Bool.true_eq_false, if_false]
  rw [Proc.bind_eq_ret]
  refine exists_congr fun r => exists_congr fun w₁ => exists_congr fun es₁ => ?_
  by_cases hr : r = 0
  · simp only [if_pos hr, Proc.bind_eq_ret, Proc.pure_eq_ret]
    constructor
    · rintro ⟨hopen, b, w₂, es₂, hop, ⟨⟩, w₃, es₃, hclose, rfl, rfl, rfl⟩
      exact ⟨w₂, es₂, hopen, hop, hclose⟩
    · rintro ⟨w₂, es₂, hopen, hop, hclose⟩
      exact ⟨hopen, a, w₂, es₂, hop, (), w', es', hclose, rfl, rfl, rfl⟩
  · simp only [if_neg hr, Proc.bind_eq_ret, Proc.pure_eq_ret]
    constructor
    · rintro ⟨hopen, b, w₂, es₂, ⟨rfl, rfl, rfl⟩, ⟨⟩, w₃, es₃, hclose, rfl, rfl, rfl⟩
      exact ⟨w₂, es₂, hopen, ⟨rfl, rfl, rfl⟩, hclose⟩
    · rintro ⟨w₂, es₂, hopen, ⟨rfl, rfl, rfl⟩, hclose⟩
      exact ⟨hopen, a, w₂, es₂, ⟨rfl, rfl, rfl⟩, (), w', es', hclose, rfl, rfl, rfl⟩

end Frame

end BiometricAuth
