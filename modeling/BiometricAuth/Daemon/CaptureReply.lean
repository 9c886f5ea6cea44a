import BiometricAuth.Codec.Base64Loop
import BiometricAuth.Daemon.Handlers
import BiometricAuth.Driver.StopResult

/-!
# What a Capture replies

`on_capture_completed` hands on the data of an image that it frees on its way out, and
`community_ops_capture` encodes `sizeof` a pointer of it, which is 8. A capture that fails leaves
the result alone, so that the handler finds the success of the open before it.

`freed` stands for what is read where a freed string was; nothing is assumed of it. A reply is sent
only if its string is one that D-Bus takes (`isDBusString`): on its error path the handler sends a
string that it has freed, or `NULL` of a disabled device. With `freed = id` this is the Capture of
the other modules, as far as its replies are sent (`gdbusCapture_id`).

Main result: `toldCapture_iff`, which images and which failures a Capture tells the caller of.
-/

namespace BiometricAuth

open Process World

section Capture

variable {π : Type} (fp : Libfprint π) (freed : Bytes → Bytes)

/-! ### The operation and its handler -/

/-- `bio_base64_encode (feature_data, feature_encode, sizeof (feature_encode))`, for an image of
`size` bytes: 8 bytes of `memory` are read, and their text goes with its terminator into the
`size * 2 + 1` bytes of `feature_encode`. -/
def encodeFeature (memory : Bytes) (size : ℕ) : Option Bytes :=
  if 8 ≤ memory.length ∧ 13 ≤ size * 2 + 1 then some (bioBase64Encode (memory.take 8)) else none

/-- `community_ops_capture`, which finds the image freed. -/
def communityOpsCaptureFreed : Driver π (Option Bytes) := do
  Proc.modify fun w => { w with captureData := none }
  let w ← Proc.get
  if w.dev.enable = false then
    Proc.modify setDisabled
    return none
  else
    Proc.modify fun w => { w with dev := w.dev.setDevStatus devsCaptureDoing }
    match ← fingerCapture fp with
    | none => return none
    | some image =>
      match w.dev.eigtype with
      | .data =>
        Proc.modify setCaptured
        return some (freed image)
      | .eigenvalue | .eigenvector =>
        let featureEncode ← Proc.ofOption (encodeFeature (freed image) image.length)
        Proc.modify setCaptured
        return some featureEncode

/-- The strings of D-Bus: not `NULL`, no NUL in them, and UTF-8. -/
def isDBusString (caps : Option Bytes) : Bool :=
  caps.any fun str => decide (0 ∉ str) && str.toByteArray.validateUTF8

/-- `g_variant_new` makes no reply of any other string, and then none is sent. -/
def Reply.isSent : Reply → Bool
  | .capture _ caps => isDBusString caps
  | _ => true

/-- `gdbus_capture_pt`, which has the device. -/
def gdbusCapture : Driver π (List Reply) := do
  let w ← Proc.get
  let caps ← bioOps fp none (communityOpsCaptureFreed fp freed)
  let caps := if w.dev.enable = false then none else some (bioNewString caps)
  let w ← Proc.get
  -- after an error the string is freed, and sent all the same
  let sent := if Request.commonCode w.dev.opsResult = -retOpsSuccess then caps else caps.map freed
  return (Request.capture.replies (.caps sent) w.dev.opsResult).filter Reply.isSent

theorem encodeFeature_length (featureData : Bytes) :
    encodeFeature featureData featureData.length = captureEncode featureData := by
  unfold encodeFeature captureEncode
  -- an image of 8 bytes has room for the text of 8 bytes
  have hroom : 8 ≤ featureData.length ∧ 13 ≤ featureData.length * 2 + 1 ↔
      8 ≤ featureData.length := by
    omega
  simp only [hroom]

theorem communityOpsCaptureFreed_id : communityOpsCaptureFreed fp id = communityOpsCapture fp := by
  unfold communityOpsCaptureFreed communityOpsCapture
  simp only [← encodeFeature_length]
  rfl

/-- A freed string that is still there makes no difference. -/
theorem gdbusCapture_id : gdbusCapture fp id =
    List.filter Reply.isSent <$> Request.capture.serve fp .admitted := by
  funext w es
  -- the handler written out as the calls it makes
  have hserve : Request.capture.serve fp .admitted w es =
      (bioOps fp none (communityOpsCapture fp) >>= fun caps => Proc.get >>= fun w' =>
        pure (Request.capture.replies
          (.caps (if w.dev.enable = false then none else some (bioNewString caps)))
          w'.dev.opsResult)) w es := by
    unfold Request.serve Request.run bioOpsCapture
    simp only [Proc.map_bind]
    rw [Proc.bind_apply, Proc.get_bind, Proc.bind_apply, Proc.bind_apply]
    cases bioOps fp none (communityOpsCapture fp) w es with
    | ret caps w' es' => rfl
    | _ => rfl
  -- the messages that are not sent are filtered out at the end
  have hmap : (List.filter Reply.isSent <$> Request.capture.serve fp .admitted) w es =
      (Request.capture.serve fp .admitted >>= fun replies =>
        pure (replies.filter Reply.isSent)) w es := rfl
  rw [hmap, Proc.bind_apply, hserve, gdbusCapture, communityOpsCaptureFreed_id]
  -- without a change to the bytes both make the same calls
  simp only [Option.map_id, id_eq, ite_self, Proc.get_bind]
  rw [Proc.bind_apply, Proc.bind_apply]
  cases bioOps fp none (communityOpsCapture fp) w es with
  | ret caps w' es' => rfl
  | _ => rfl

/-! ### Strings that are sent -/

/-- ASCII is UTF-8. -/
theorem validateUTF8_of_ascii {str : Bytes} (h : ∀ c ∈ str, c < 128) :
    str.toByteArray.validateUTF8 = true := by
  have hencode : (str.map fun c => Char.ofNat c.toNat).flatMap String.utf8EncodeChar = str := by
    induction str with
    | nil => rfl
    | cons c str ih =>
      obtain ⟨hc, hstr⟩ := List.forall_mem_cons.mp h
      have hlt : c.toNat < 128 := UInt8.lt_iff_toNat_lt.mp hc
      have hval : (Char.ofNat c.toNat).val.toNat = c.toNat := by
        rw [← Char.toNat, Char.toNat_ofNat, if_pos (Or.inl (by omega))]
      have hone : String.utf8EncodeChar (Char.ofNat c.toNat) = [c] := by
        rw [String.utf8EncodeChar, if_pos (by omega), hval, UInt8.ofNat_toNat]
      rw [List.map_cons, List.flatMap_cons, hone, ih hstr, List.singleton_append]
  rw [ByteArray.validateUTF8_eq_true_iff]
  exact .intro _ (by rw [List.utf8Encode, hencode])

theorem base64Of_lt (t : UInt8) : base64Of t < 128 := by
  have halphabet : ∀ c ∈ base64char, c < 128 := by decide +kernel
  rw [base64Of, List.getD_eq_getElem?_getD]
  cases hchar : base64char[t.toNat]? with
  | none => decide
  | some c => exact halphabet c (List.mem_of_getElem? hchar)

theorem bioBase64Encode_ascii (binData : Bytes) : ∀ c ∈ bioBase64Encode binData, c < 128 := by
  have hpad : base64Pad < 128 := by decide
  induction binData using bioBase64Encode.induct with
  | case1 => exact List.forall_mem_nil _
  | case2 b₀ => simp [bioBase64Encode, base64Of_lt, hpad]
  | case3 b₀ b₁ => simp [bioBase64Encode, base64Of_lt, hpad]
  | case4 b₀ b₁ b₂ rest ih => simpa [bioBase64Encode, base64Of_lt] using ih

/-- The encoded text of a capture can be sent. -/
theorem isDBusString_bioBase64Encode (binData : Bytes) :
    isDBusString (some (bioBase64Encode binData)) = true := by
  rw [isDBusString, Option.any_some, Bool.and_eq_true, decide_eq_true_eq]
  exact ⟨zero_notMem_bioBase64Encode binData,
    validateUTF8_of_ascii (bioBase64Encode_ascii binData)⟩

theorem filter_isSent (ret : ℤ) {caps : Option Bytes} (h : isDBusString caps = true) :
    [Reply.capture ret caps].filter Reply.isSent = [.capture ret caps] := by
  simp [Reply.isSent, h]

/-! ### What it is to do -/

/-- The image that libfprint has delivered when the loop is left. -/
def delivered (w : World π) (exit : Exit) : Option Bytes :=
  if exit = .done then w.captureData else none

/-- The state of the device when `community_ops_capture` returns. -/
def World.afterCapture (w : World π) (exit : Exit) : World π :=
  if (delivered w exit).isSome then setCaptured w else w

/-- The Capture tells the caller what it has captured, or of an error: `community_ops_capture`
runs from `w₀` on. -/
def ToldCapture (w : World π) (es : List (List (Event π))) (w₀ : World π)
    (es₀ : List (List (Event π))) : Option Bytes → Prop
  | some image => ∃ featureEncode w₁ es₁ w' es',
      communityOpsCaptureFreed fp freed w₀ es₀ = .ret (some featureEncode) w₁ es₁ ∧
        bioBase64Decode featureEncode = some image ∧
        gdbusCapture fp freed w es = .ret [.capture (-retOpsSuccess) (some featureEncode)] w' es'
  | none => ∃ caps w' es',
      gdbusCapture fp freed w es = .ret [.capture (-retOpsError) (some caps)] w' es'

/-- An image of 8 bytes is still there when it is encoded, and the device closes in time. Of a
failure: what is read where the empty string was freed is a string that can be sent, and if it is
neither a timeout nor a stop, the device does not close in time. -/
def CaptureFits (exit closed : Exit) : Option Bytes → Prop
  | some image => image.length = 8 ∧ (freed image).take 8 = image ∧ closed = .done
  | none => isDBusString (some (freed [])) = true ∧ (exit = .done → closed = .timeout)

section Outcome

variable {fp freed} {w w₀ w₁ w₂ : World π} {es es₀ es₁ es₂ : List (List (Event π))}
  {exit closed : Exit}

/-- `finger_capture` in terms of the loop. -/
theorem fingerCapture_of_loop
    (hloop : BioOps.capture.loop fp w₀ es₀ = .ret (some exit) w₁ es₁) :
    fingerCapture fp
        { w₀ with captureData := none, dev := w₀.dev.setDevStatus devsCaptureDoing } es₀ =
      .ret (delivered w₁ exit) w₁ es₁ := by
  simp only [BioOps.loop, Proc.modify_bind] at hloop
  obtain ⟨exit', hawait, hexit⟩ := Proc.map_eq_ret.mp hloop
  obtain rfl : exit = exit' := Option.some.inj hexit
  simp only [fingerCapture, Proc.modify_bind]
  refine Proc.bind_eq_ret.mpr ⟨_, _, _, hawait, ?_⟩
  cases exit <;> rfl

/-- `community_ops_capture` when no image has been delivered. -/
theorem communityOpsCaptureFreed_none (henable : Enabled w₀)
    (hloop : BioOps.capture.loop fp w₀ es₀ = .ret (some exit) w₁ es₁)
    (hnone : delivered w₁ exit = none) :
    communityOpsCaptureFreed fp freed w₀ es₀ = .ret none w₁ es₁ := by
  have hdisabled : ¬ w₀.dev.enable = false := by
    rw [show w₀.dev.enable = true from henable]
    decide
  simp only [communityOpsCaptureFreed, Proc.get_bind, Proc.modify_bind, if_neg hdisabled]
  refine Proc.bind_eq_ret.mpr ⟨_, _, _, fingerCapture_of_loop hloop, ?_⟩
  rw [hnone]
  rfl

/-- `community_ops_capture` when an image has been delivered. -/
theorem communityOpsCaptureFreed_some (henable : Enabled w₀)
    (heigtype : w₀.dev.eigtype = .eigenvalue)
    (hloop : BioOps.capture.loop fp w₀ es₀ = .ret (some exit) w₁ es₁) {image : Bytes}
    (himage : delivered w₁ exit = some image) {r : Option Bytes} {w' : World π}
    {es' : List (List (Event π))} :
    communityOpsCaptureFreed fp freed w₀ es₀ = .ret r w' es' ↔
      ∃ featureEncode, encodeFeature (freed image) image.length = some featureEncode ∧
        r = some featureEncode ∧ w' = setCaptured w₁ ∧ es' = es₁ := by
  -- the device is enabled, and the loop has ended with an image
  have hdisabled : ¬ w₀.dev.enable = false := by
    rw [show w₀.dev.enable = true from henable]
    decide
  simp only [communityOpsCaptureFreed, Proc.get_bind, Proc.modify_bind, if_neg hdisabled]
  rw [Proc.bind_apply, fingerCapture_of_loop hloop]
  simp only [himage, heigtype]
  -- what is left is the encoding of the bytes
  rw [Proc.bind_eq_ret]
  constructor
  · -- the call returned, so the encoding was defined
    rintro ⟨featureEncode, w₃, es₃, hoption, hret⟩
    obtain ⟨hencode, rfl, rfl⟩ := Proc.ofOption_eq_ret.mp hoption
    obtain ⟨rfl, rfl, rfl⟩ := Proc.pure_eq_ret.mp hret
    exact ⟨featureEncode, hencode, rfl, rfl, rfl⟩
  · -- the encoding is defined, so the call returns it
    rintro ⟨featureEncode, hencode, rfl, rfl, rfl⟩
    exact ⟨featureEncode, w₁, es', Proc.ofOption_eq_ret.mpr ⟨hencode, rfl, rfl⟩, rfl⟩

/-! ### The result on the device -/

/-- Close, which leaves the result alone unless it times out. -/
theorem communityOpsClose_opsResult (henable : Enabled w)
    (hclose : (openPoller fp).poll w.setAsynRunning.startClose es = .ret closed w₁ es₁) :
    ∃ w', communityOpsClose fp w es = .ret () w' es₁ ∧
      w'.dev.opsResult = if closed = .done then w.dev.opsResult else opsCloseFail := by
  rcases openPoller_exit fp hclose with rfl | rfl
  · exact ⟨_, (communityOpsClose_eq_ret fp henable).mpr ⟨.done, w₁, hclose, .inl ⟨rfl, rfl⟩⟩,
      (poll_openPoller_inv (.inr rfl) hclose).opsResult⟩
  · exact ⟨_, (communityOpsClose_eq_ret fp henable).mpr ⟨.timeout, w₁, hclose, .inr ⟨rfl, rfl⟩⟩,
      rfl⟩

/-- The loop of capture, when libfprint has answered: the callback does not touch the result. -/
theorem captureLoop_done {result : ℤ} :
    Proc.Returns (fun w => w.dev.opsResult = result) (BioOps.capture.loop fp) fun exit w =>
      exit = some .done → w.dev.opsResult = result := by
  refine .modify_bind (M := WaitsOn .deviceCapture (· = result)) (fun w hw => ⟨hw, .inl rfl⟩) ?_
  intro w es exit w' es' hw hret
  obtain ⟨exit, hawait, rfl⟩ := Proc.map_eq_ret.mp hret
  obtain ⟨w₁, hpoll, rfl⟩ := awaitCompletion_eq_ret.mp hawait
  have hexit := Poller.poll_invariant (P := WaitsOn .deviceCapture (· = result))
    (Q := fun _ => True)
    (fun _ _ _ hs he => ⟨(deliver_opsResult_of_silent (.inl rfl) hs.pending he).trans hs.opsResult,
      pending_deliver hs.pending he⟩)
    (fun _ hs _ => ⟨hs.opsResult, hs.pending⟩) (fun _ _ _ => trivial) (fun _ _ _ _ _ => trivial)
    hw hpoll
  intro hdone
  obtain rfl := Option.some.inj hdone
  exact hexit.1.opsResult

/-- The loop of capture, when the time is up. -/
theorem captureLoop_timeout :
    Proc.Returns (fun _ => True) (BioOps.capture.loop fp) fun exit w =>
      exit = some .timeout → w.dev.opsResult = opsCaptureTimeout := by
  refine .modify_bind (M := fun _ => True) (fun _ _ => trivial) ?_
  intro w es exit w' es' hw hret
  obtain ⟨exit, hawait, rfl⟩ := Proc.map_eq_ret.mp hret
  obtain ⟨w₁, -, rfl⟩ := awaitCompletion_eq_ret.mp hawait
  intro htimeout
  rw [if_pos (Option.some.inj htimeout)]
  rfl

theorem commonCode_eq_error {opsResult : ℤ} :
    Request.commonCode opsResult = -retOpsError ↔
      ¬ Request.commonCode opsResult = -retOpsSuccess := by
  unfold Request.commonCode
  split <;> decide

/-- The code of a Capture that has not been handed an image. -/
theorem commonCode_of_none (hresult : w₀.dev.opsResult = opsOpenSuccess)
    (hloop : BioOps.capture.loop fp w₀ es₀ = .ret (some exit) w₁ es₁) :
    Request.commonCode w₁.dev.opsResult = -retOpsSuccess ↔ exit = .done := by
  cases exit with
  | done =>
    rw [captureLoop_done _ _ _ _ _ hresult hloop rfl]
    decide
  | timeout =>
    rw [captureLoop_timeout _ _ _ _ _ trivial hloop rfl]
    decide
  | stopped =>
    rw [captureLoop_stopped _ _ _ _ _ trivial hloop rfl]
    decide

/-! ### The reply -/

/-- The handler, once `community_ops_capture` has returned `caps`. -/
theorem gdbusCapture_eq_ret (hopen : communityOpsOpen fp w es = .ret 0 w₀ es₀) {caps : Option Bytes}
    (hcapture : communityOpsCaptureFreed fp freed w₀ es₀ = .ret caps w₁ es₁) (henable₁ : Enabled w₁)
    (hclose : (openPoller fp).poll w₁.setAsynRunning.startClose es₁ = .ret closed w₂ es₂) :
    ∃ code w', gdbusCapture fp freed w es =
        .ret ([.capture code (some (if code = -retOpsSuccess then bioNewString caps
          else freed (bioNewString caps)))].filter Reply.isSent) w' es₂ ∧
      code = Request.commonCode (if closed = .done then w₁.dev.opsResult else opsCloseFail) := by
  obtain ⟨henable, -, -⟩ := opened_of_ret_zero hopen
  obtain ⟨w', hret, hresult⟩ := communityOpsClose_opsResult henable₁ hclose
  have hops : bioOps fp none (communityOpsCaptureFreed fp freed) w es = .ret caps w' es₂ :=
    (bioOps_eq_ret henable).mpr ⟨0, w₀, es₀, w₁, es₁, hopen, (if_pos rfl).mpr hcapture, hret⟩
  refine ⟨Request.commonCode w'.dev.opsResult, w', ?_, by rw [hresult]⟩
  have hdisabled : ¬ w.dev.enable = false := by
    rw [show w.dev.enable = true from henable]
    decide
  simp only [gdbusCapture, Proc.get_bind, if_neg hdisabled, Option.map_some, ← apply_ite]
  rw [Proc.bind_apply, hops]
  rfl

/-- The text of 8 bytes, and of the image only if it is these. -/
theorem encodeFeature_decodes {image featureEncode : Bytes}
    (hencode : encodeFeature (freed image) image.length = some featureEncode) :
    bioBase64Decode featureEncode = some image ↔
      image.length = 8 ∧ (freed image).take 8 = image := by
  obtain ⟨⟨hread, -⟩, htext⟩ := Option.ite_none_right_eq_some.mp hencode
  obtain rfl := Option.some.inj htext
  rw [bioBase64Decode_encode, Option.some_inj]
  constructor
  · intro htake
    refine ⟨?_, htake⟩
    calc image.length = ((freed image).take 8).length := by rw [htake]
      _ = 8 := by rw [List.length_take, Nat.min_eq_left hread]
  · exact And.right

/-- The text has no NUL, so that it is sent as it is. -/
theorem bioNewString_encodeFeature {memory featureEncode : Bytes} {size : ℕ}
    (hencode : encodeFeature memory size = some featureEncode) :
    bioNewString (some featureEncode) = featureEncode := by
  obtain ⟨-, htext⟩ := Option.ite_none_right_eq_some.mp hencode
  obtain rfl := Option.some.inj htext
  have hzero := zero_notMem_bioBase64Encode (memory.take 8)
  refine List.takeWhile_eq_self_iff.mpr fun c hc => decide_eq_true ?_
  rintro rfl
  exact hzero hc

/-- A reply that is sent is the one that is completed. -/
theorem eq_of_filter_isSent {reply reply' : Reply}
    (h : [reply].filter Reply.isSent = [reply']) : reply' = reply ∧ reply'.isSent = true := by
  have hmem := List.mem_filter.mp (h ▸ List.mem_singleton_self reply')
  exact ⟨List.mem_singleton.mp hmem.1, hmem.2⟩

/-- There is no picture: the driver returns without a string. -/
theorem toldCapture_none_iff (hopen : communityOpsOpen fp w es = .ret 0 w₀ es₀)
    (hloop : BioOps.capture.loop fp w₀ es₀ = .ret (some exit) w₁ es₁)
    (himage : delivered w₁ exit = none)
    (hclose : (openPoller fp).poll (w₁.afterCapture exit).setAsynRunning.startClose es₁ =
      .ret closed w₂ es₂) :
    ToldCapture fp freed w es w₀ es₀ none ↔ CaptureFits freed exit closed none := by
  obtain ⟨-, henable₀, hresult⟩ := opened_of_ret_zero hopen
  have henable₁ : Enabled w₁ := BioOps.capture.loop_returns _ _ _ _ _ henable₀ hloop
  have hafter : w₁.afterCapture exit = w₁ := by
    rw [World.afterCapture, himage]
    -- nothing is written to the device, so the close starts from the state of the loop
    rfl
  have hclosed := openPoller_exit fp hclose
  rw [hafter] at hclose
  have hcapture : communityOpsCaptureFreed fp freed w₀ es₀ = .ret none w₁ es₁ :=
    communityOpsCaptureFreed_none henable₀ hloop himage
  obtain ⟨code, w', hrun, hcode⟩ := gdbusCapture_eq_ret hopen hcapture henable₁ hclose
  -- what is sent is the freed string, and only with the code of an error
  have htold : ToldCapture fp freed w es w₀ es₀ none ↔
      isDBusString (some (freed [])) = true ∧ code = -retOpsError := by
    constructor
    · rintro ⟨caps, w₃, es₃, hrun'⟩
      obtain ⟨hreply, hsent⟩ := eq_of_filter_isSent (Outcome.ret.inj (hrun.symm.trans hrun')).1
      obtain ⟨hcode', hcaps⟩ := Reply.capture.inj hreply
      rw [← hcode', if_neg (by decide)] at hcaps
      have hsent : isDBusString (some caps) = true := hsent
      rw [hcaps] at hsent
      exact ⟨hsent, hcode'.symm⟩
    · rintro ⟨hsent, rfl⟩
      rw [if_neg (by decide), filter_isSent _ (show isDBusString (some (freed
        (bioNewString none))) = true from hsent)] at hrun
      exact ⟨_, w', es₂, hrun⟩
  rw [htold, hcode]
  refine and_congr_right fun _ => ?_
  -- the code is that of a close that times out, and else that of the loop
  show _ ↔ (exit = .done → closed = .timeout)
  rcases hclosed with rfl | rfl
  · rw [if_pos rfl, commonCode_eq_error, commonCode_of_none hresult hloop]
    simp
  · exact iff_of_true rfl fun _ => rfl

/-- There is a picture: the driver encodes it and returns the string. -/
theorem toldCapture_some_iff (heigtype : w.dev.eigtype = .eigenvalue)
    (hopen : communityOpsOpen fp w es = .ret 0 w₀ es₀)
    (hloop : BioOps.capture.loop fp w₀ es₀ = .ret (some exit) w₁ es₁) {image : Bytes}
    (himage : delivered w₁ exit = some image)
    (hclose : (openPoller fp).poll (w₁.afterCapture exit).setAsynRunning.startClose es₁ =
      .ret closed w₂ es₂) :
    ToldCapture fp freed w es w₀ es₀ (some image) ↔
      CaptureFits freed exit closed (some image) := by
  obtain ⟨henable, henable₀, -⟩ := opened_of_ret_zero hopen
  have henable₁ : Enabled w₁ := BioOps.capture.loop_returns _ _ _ _ _ henable₀ hloop
  have hafter : w₁.afterCapture exit = setCaptured w₁ := by
    rw [World.afterCapture, himage]
    rfl
  have hclosed := openPoller_exit fp hclose
  rw [hafter] at hclose
  have heigtype₀ : w₀.dev.eigtype = .eigenvalue :=
    (congrArg BioDev.eigtype (communityOpsOpen_spec henable hopen).1.identity).trans heigtype
  constructor
  · rintro ⟨featureEncode, w₃, es₃, w', es', hcapture, hdecode, hrun⟩
    obtain ⟨text, hencode, htext, rfl, rfl⟩ :=
      (communityOpsCaptureFreed_some henable₀ heigtype₀ hloop himage).mp hcapture
    obtain rfl := Option.some.inj htext
    obtain ⟨hlength, hfreed⟩ := (encodeFeature_decodes hencode).mp hdecode
    refine ⟨hlength, hfreed, hclosed.resolve_right ?_⟩
    -- a reply that is sent is one of a success, so the close has not timed out
    rintro rfl
    obtain ⟨code, w₄, hrun', hcode⟩ := gdbusCapture_eq_ret hopen hcapture henable₁ hclose
    obtain ⟨hreply, -⟩ := eq_of_filter_isSent (Outcome.ret.inj (hrun'.symm.trans hrun)).1
    rw [← (Reply.capture.inj hreply).1, if_neg (by decide)] at hcode
    exact absurd hcode (by decide)
  · -- the bytes to be encoded are there, and base64 is a string that can be sent
    rintro ⟨hlength, hfreed, rfl⟩
    have hread : 8 ≤ (freed image).length := by
      have hle := List.length_take_le' 8 (freed image)
      rw [hfreed, hlength] at hle
      exact hle
    have hencode : encodeFeature (freed image) image.length =
        some (bioBase64Encode ((freed image).take 8)) := if_pos ⟨hread, by omega⟩
    have hcapture := (communityOpsCaptureFreed_some henable₀ heigtype₀ hloop himage).mpr
      ⟨_, hencode, rfl, rfl, rfl⟩
    obtain ⟨code, w', hrun, hcode⟩ := gdbusCapture_eq_ret hopen hcapture henable₁ hclose
    have hsuccess : code = -retOpsSuccess := hcode.trans rfl
    rw [hsuccess, if_pos rfl, bioNewString_encodeFeature hencode,
      filter_isSent _ (isDBusString_bioBase64Encode _)] at hrun
    exact ⟨_, _, _, w', es₂, hcapture, (encodeFeature_decodes hencode).mpr ⟨hlength, hfreed⟩, hrun⟩

/-- **Capture.** The caller is told what has come of a capture exactly if the driver hands on what
it has and nothing hides it. -/
theorem toldCapture_iff (freed : Bytes → Bytes) (heigtype : w.dev.eigtype = .eigenvalue)
    (hopen : communityOpsOpen fp w es = .ret 0 w₀ es₀)
    (hloop : BioOps.capture.loop fp w₀ es₀ = .ret (some exit) w₁ es₁)
    (hclose : (openPoller fp).poll (w₁.afterCapture exit).setAsynRunning.startClose es₁ =
      .ret closed w₂ es₂) :
    ToldCapture fp freed w es w₀ es₀ (delivered w₁ exit) ↔
      CaptureFits freed exit closed (delivered w₁ exit) := by
  cases himage : delivered w₁ exit with
  | none => exact toldCapture_none_iff hopen hloop himage hclose
  | some image => exact toldCapture_some_iff heigtype hopen hloop himage hclose

end Outcome

end Capture

/-- libfprint answers each call at once, the capture with `image`. -/
def captureSchedule (image : Option Bytes) : List (List (Event Bytes)) :=
  [[.deviceOpened true], [.captureCompleted image], [.deviceClosed]]

/-- An image of 8 bytes whose memory stays as it is. -/
theorem toldCapture_eight : ∃ w₀ es₀,
    communityOpsOpen bytesLibfprint idleWorld (captureSchedule (some [1, 2, 3, 4, 5, 6, 7, 8])) =
      .ret 0 w₀ es₀ ∧
    ToldCapture bytesLibfprint id idleWorld (captureSchedule (some [1, 2, 3, 4, 5, 6, 7, 8]))
      w₀ es₀ (some [1, 2, 3, 4, 5, 6, 7, 8]) := by
  obtain ⟨w₀, es₀, w₁, es₁, w₂, es₂, hopen, hloop, himage, hclose⟩ : ∃ w₀ es₀ w₁ es₁ w₂ es₂,
      communityOpsOpen bytesLibfprint idleWorld (captureSchedule (some [1, 2, 3, 4, 5, 6, 7, 8])) =
        .ret 0 w₀ es₀ ∧
      BioOps.capture.loop bytesLibfprint w₀ es₀ = .ret (some .done) w₁ es₁ ∧
      delivered w₁ .done = some [1, 2, 3, 4, 5, 6, 7, 8] ∧
      (openPoller bytesLibfprint).poll (w₁.afterCapture .done).setAsynRunning.startClose es₁ =
        .ret .done w₂ es₂ :=
    ⟨_, _, _, _, _, _, rfl, rfl, rfl, rfl⟩
  have htold := (toldCapture_iff id rfl hopen hloop hclose).mpr <| by
    rw [himage]
    exact ⟨rfl, rfl, rfl⟩
  rw [himage] at htold
  exact ⟨w₀, es₀, hopen, htold⟩

/-- Of an image of 9 bytes that stays where it is the caller gets 8, and of a capture that has
failed a success. -/
theorem not_toldCapture :
    (∃ w₀ es₀, communityOpsOpen bytesLibfprint idleWorld
        (captureSchedule (some [1, 2, 3, 4, 5, 6, 7, 8, 9])) = .ret 0 w₀ es₀ ∧
      ¬ ToldCapture bytesLibfprint id idleWorld
        (captureSchedule (some [1, 2, 3, 4, 5, 6, 7, 8, 9])) w₀ es₀
        (some [1, 2, 3, 4, 5, 6, 7, 8, 9])) ∧
    ∃ w₀ es₀, communityOpsOpen bytesLibfprint idleWorld (captureSchedule none) =
        .ret 0 w₀ es₀ ∧
      ¬ ToldCapture bytesLibfprint id idleWorld (captureSchedule none) w₀ es₀ none := by
  refine ⟨⟨_, _, rfl, ?_⟩, ⟨_, _, rfl, ?_⟩⟩
  · rintro ⟨featureEncode, w₁, es₁, w', es', hcapture, hdecode, -⟩
    obtain ⟨⟩ := hcapture
    exact absurd hdecode (by decide +kernel)
  · rintro ⟨caps, w', es', hrun⟩
    obtain ⟨⟩ := hrun

end BiometricAuth
