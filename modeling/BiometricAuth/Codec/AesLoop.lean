import BiometricAuth.Codec.AesSpec
import BiometricAuth.Common.CInt

/-!
# The loops of cipher feedback

`AES_128_CFB_Encrypt` and `AES_128_CFB_Decrypt` with the `int`s and the output buffers of the
source, where `AES128CFBEncrypt` and `AES128CFBDecrypt` have lists. The two loops differ in the
block that they feed back only. They agree with the lists up to `2 ^ 31 - 16` bytes
(`AES128CFBEncryptLoop_eq`, `AES128CFBDecryptLoop_eq`); above, `end` overflows (`cfbLoop_eq_none`).

Main results: `AES128CFBEncryptLoop_standard_iff`, `cfbInverse_iff`.
-/

namespace BiometricAuth

/-! ### The loops of `AES_128_CFB_Encrypt` and `AES_128_CFB_Decrypt` -/

/-- The variables of either loop. -/
structure CfbLoop where
  firstRound : Bool
  r : ℤ
  outLen : ℤ
  input : AesBlock
  outData : Bytes

/-- `outData[outLen++] = b`; a write outside of the buffer is undefined. -/
def storeByte (s : Bytes × ℤ) (b : UInt8) : Option (Bytes × ℤ) := do
  let outLen ← cInt (s.2 + 1)
  if 0 ≤ s.2 ∧ s.2 < s.1.length then some (s.1.set s.2.toNat b, outLen) else none

/-- A round of either loop, with `r++`: `text` is the block it reads and `block` the one it writes;
`feedback` is the one of the two that goes into `input`. -/
def cfbRound (feedback : AesBlock → AesBlock → AesBlock) (w : Square × List Square)
    (iv : AesBlock) (inData : Bytes) (s : CfbLoop) : Option CfbLoop := do
  let inLen : ℤ := inData.length
  let start ← cInt (s.r * 16)
  let stop ← cInt (s.r * 16 + 16)
  let stop := if stop > inLen then inLen else stop
  let count := (stop - start).toNat
  let text : AesBlock := FeedbackMode.loadBlock 0 ((inData.drop start.toNat).take count)
  let output := cipher w (if s.firstRound then iv else s.input)
  let block : AesBlock := Vector.ofFn fun i =>
    if stop - start - 1 < i then 0 ^^^ output.get i else text.get i ^^^ output.get i
  let (outData, outLen) ← (block.toList.take count).foldlM storeByte (s.outData, s.outLen)
  let r ← cInt (s.r + 1)
  some { firstRound := false, r, outLen, input := feedback text block, outData }

/-- The rounds that are left. -/
def cfbRounds (feedback : AesBlock → AesBlock → AesBlock) (w : Square × List Square)
    (iv : AesBlock) (inData : Bytes) : ℕ → CfbLoop → Option CfbLoop
  | 0, s => some s
  | k + 1, s => (cfbRound feedback w iv inData s).bind (cfbRounds feedback w iv inData k)

/-- What the two functions share: the number they return and `outData`, or `none` where their
behaviour is undefined. `inLen` is the length of `inData`, and of the buffer `outData`; an `int`
states no more than `2 ^ 31 - 1` of them. -/
def cfbLoop (feedback : AesBlock → AesBlock → AesBlock) (key iv : AesBlock) (inData : Bytes) :
    Option (ℤ × Bytes) :=
  (cfbRounds feedback (keyExpansion key) iv inData (FeedbackMode.rounds 16 inData.length)
    { firstRound := true, r := 0, outLen := 0, input := Vector.replicate 16 0,
      outData := List.replicate inData.length 0 }).map fun s => (s.outLen, s.outData)

/-- `AES_128_CFB_Encrypt`: what was written is enciphered next. -/
def AES128CFBEncryptLoop (key iv : AesBlock) (inData : Bytes) : Option (ℤ × Bytes) :=
  cfbLoop (fun _ block => block) key iv inData

/-- `AES_128_CFB_Decrypt`: what was read is enciphered next. -/
def AES128CFBDecryptLoop (key iv : AesBlock) (inData : Bytes) : Option (ℤ × Bytes) :=
  cfbLoop (fun text _ => text) key iv inData

/-- Bytes written one after the other to a buffer that has room for them. -/
theorem foldlM_storeByte (bytes written : Bytes) {m : ℕ} (hroom : bytes.length ≤ m)
    (hint : IsCInt (written.length + m)) :
    bytes.foldlM storeByte (written ++ List.replicate m 0, (written.length : ℤ)) =
      some (written ++ bytes ++ List.replicate (m - bytes.length) 0,
        ((written ++ bytes).length : ℤ)) := by
  induction bytes generalizing written m with
  | nil => simp
  | cons b bytes ih =>
    -- there is room for one byte more
    rw [List.length_cons] at hroom
    obtain ⟨m, rfl⟩ := Nat.exists_eq_add_of_le' (Nat.one_le_of_lt hroom)
    -- the index is advanced within an `int`
    have hnext : cInt ((written.length : ℤ) + 1) = some ((written ++ [b]).length : ℤ) := by
      rw [List.length_append, cInt_eq_some ⟨by omega, by have := hint.2; omega⟩]
      rfl
    -- the byte goes where the first of the zeros was
    have hset : (written ++ List.replicate (m + 1) 0).set written.length b =
        written ++ [b] ++ List.replicate m 0 := by
      rw [List.set_append_right _ _ le_rfl, Nat.sub_self, List.replicate_succ, List.set_cons_zero,
        List.append_assoc, List.singleton_append]
    -- so one byte is stored, and the rest of the buffer is zeros
    have hstore : storeByte (written ++ List.replicate (m + 1) 0, (written.length : ℤ)) b =
        some (written ++ [b] ++ List.replicate m 0, ((written ++ [b]).length : ℤ)) := by
      rw [storeByte, hnext, Option.bind_eq_bind, Option.bind_some, if_pos (by simp),
        Int.toNat_natCast, hset]
    have hint' : IsCInt ((written ++ [b]).length + m) := by
      rw [List.length_append, List.length_singleton]
      push_cast at hint ⊢
      rwa [add_assoc, add_comm 1 (m : ℤ)]
    -- the bytes that are left find one place less
    rw [List.foldlM_cons, hstore, Option.bind_eq_bind, Option.bind_some,
      ih (written ++ [b]) (by omega) hint', List.length_cons, Nat.add_sub_add_right]
    simp

/-- The block a round writes. -/
def cfbBlock (w : Square × List Square) (prev : AesBlock) (data : Bytes) : AesBlock :=
  FeedbackMode.addBlock (· ^^^ ·) (FeedbackMode.loadBlock 0 data) (cipher w prev)

/-- Where the loop is before round `r`: what it has written, and the block it enciphers next. -/
structure CfbLoop.Before (s : CfbLoop) (iv : AesBlock) (inData : Bytes) (r : ℕ) (prev : AesBlock)
    (written : Bytes) : Prop where
  round : s.r = r
  length : written.length = min (16 * r) inData.length
  outLen : s.outLen = written.length
  outData : s.outData = written ++ List.replicate (inData.length - written.length) 0
  input : (if s.firstRound then iv else s.input) = prev

/-- Bytes past the end of the text are enciphered as zeros. -/
theorem ofFn_eq_cfbBlock (w : Square × List Square) (prev : AesBlock) (data : Bytes) {count : ℕ}
    (hcount : count = min 16 data.length) :
    (Vector.ofFn fun i : Fin 16 =>
      if (count : ℤ) - 1 < ((i : ℕ) : ℤ) then 0 ^^^ (cipher w prev).get i
      else (FeedbackMode.loadBlock 0 data : AesBlock).get i ^^^
        (cipher w prev).get i) = cfbBlock w prev data := by
  ext i hi
  rw [cfbBlock, FeedbackMode.getElem_addBlock, FeedbackMode.getElem_loadBlock, Vector.getElem_ofFn]
  simp only [Vector.get_eq_getElem, FeedbackMode.getElem_loadBlock]
  by_cases hpast : data.length ≤ i
  · rw [if_pos (by omega), List.getD_eq_default _ _ hpast]
  · rw [if_neg (by omega)]

variable {feedback : AesBlock → AesBlock → AesBlock} {w : Square × List Square} {iv : AesBlock}
  {inData : Bytes}

/-- **Round lemma.** -/
theorem cfbRound_before {s : CfbLoop} {r : ℕ} {prev : AesBlock} {written : Bytes}
    (h : s.Before iv inData r prev written)
    (hr : 16 * r < inData.length) (hlength : IsCInt inData.length) (hstop : 16 * r + 16 < 2 ^ 31) :
    ∃ s', cfbRound feedback w iv inData s = some s' ∧
      s'.Before iv inData (r + 1)
        (feedback (FeedbackMode.loadBlock 0 (inData.drop (16 * r)))
          (cfbBlock w prev (inData.drop (16 * r))))
        (written ++ (cfbBlock w prev (inData.drop (16 * r))).toList.take
          (inData.drop (16 * r)).length) := by
  obtain ⟨hround, hwritten, hlen, hout, hinput⟩ := h
  set data := inData.drop (16 * r) with hdata
  have hrest : data.length = inData.length - 16 * r := by rw [hdata, List.length_drop]
  set count := min 16 data.length with hcount
  -- the numbers of the round
  have hstartInt : cInt (s.r * 16) = some ((16 * r : ℕ) : ℤ) := by
    rw [cInt_eq_some ⟨by omega, by omega⟩]
    congr 1
    omega
  have hstopInt : cInt (s.r * 16 + 16) = some ((16 * r + 16 : ℕ) : ℤ) := by
    rw [cInt_eq_some ⟨by omega, by omega⟩]
    congr 1
    omega
  have hnext : cInt (s.r + 1) = some ((r + 1 : ℕ) : ℤ) := by
    rw [cInt_eq_some ⟨by omega, by omega⟩]
    congr 1
    omega
  have hend : (if ((16 * r + 16 : ℕ) : ℤ) > inData.length then (inData.length : ℤ)
      else ((16 * r + 16 : ℕ) : ℤ)) = ((16 * r + count : ℕ) : ℤ) := by
    split <;> omega
  have hwidth : ((16 * r + count : ℕ) : ℤ) - ((16 * r : ℕ) : ℤ) = (count : ℕ) := by omega
  -- what it writes
  set block := cfbBlock w prev data with hblock
  have htake : block.toList.take count = block.toList.take data.length := by
    rw [hcount, ← List.take_take, List.take_of_length_le (by simp)]
  have hroom : (block.toList.take count).length ≤ inData.length - written.length := by
    rw [List.length_take, Vector.length_toList]
    omega
  have hstore := foldlM_storeByte (block.toList.take count) written hroom (by
    rwa [show (written.length : ℤ) + ((inData.length - written.length : ℕ) : ℤ) =
      inData.length by omega])
  rw [htake, Nat.sub_sub, ← List.length_append] at hstore
  have hout' : (written ++ block.toList.take data.length).length =
      min (16 * (r + 1)) inData.length := by
    rw [List.length_append, List.length_take, Vector.length_toList]
    omega
  refine ⟨{ firstRound := false, r := ((r + 1 : ℕ) : ℤ),
            outLen := (written ++ block.toList.take data.length).length,
            input := feedback (FeedbackMode.loadBlock 0 data) block,
            outData := written ++ block.toList.take data.length ++
              List.replicate
                (inData.length - (written ++ block.toList.take data.length).length) 0 },
    ?_, ⟨rfl, hout', rfl, rfl, rfl⟩⟩
  -- the round, with the numbers put in
  rw [cfbRound, hstartInt, hstopInt, hnext]
  simp only [Option.bind_eq_bind, Option.bind_some, hend, hwidth, Int.toNat_natCast, hinput,
    ← hdata, FeedbackMode.loadBlock_take 0 hcount.ge, ofFn_eq_cfbBlock w prev data hcount,
    ← hblock, hlen, hout, htake]
  rw [hstore]
  rfl

/-- What `k` rounds write. -/
def cfbWritten (feedback : AesBlock → AesBlock → AesBlock) (w : Square × List Square) :
    ℕ → AesBlock → Bytes → Bytes
  | 0, _, _ => []
  | k + 1, prev, data =>
    let block := cfbBlock w prev data
    block.toList.take data.length ++
      cfbWritten feedback w k (feedback (FeedbackMode.loadBlock 0 data) block) (data.drop 16)

variable (feedback w) in
/-- **Run lemma.** The rounds that are left write the rest. -/
theorem cfbRounds_before (hlength : IsCInt inData.length) {k r : ℕ} {s : CfbLoop}
    {prev : AesBlock} {written : Bytes}
    (h : s.Before iv inData r prev written)
    (hk : FeedbackMode.rounds 16 (inData.length - 16 * r) = k) (hint : 16 * (r + k) < 2 ^ 31) :
    ∃ s', cfbRounds feedback w iv inData k s = some s' ∧ s'.outLen = inData.length ∧
      s'.outData = written ++ cfbWritten feedback w k prev (inData.drop (16 * r)) := by
  induction k generalizing r s prev written with
  | zero =>
    -- everything is written
    have hdone := FeedbackMode.eq_zero_of_rounds hk
    refine ⟨s, rfl, ?_, ?_⟩
    · rw [h.outLen, h.length]
      omega
    · rw [h.outData, h.length, cfbWritten, Nat.min_eq_right (by omega)]
      simp
  | succ k ih =>
    obtain ⟨hrest, hpos, -⟩ := FeedbackMode.rounds_succ (by decide) hk
    obtain ⟨s₁, hs₁, h₁⟩ := cfbRound_before h (by omega) hlength (by omega)
    rw [Nat.sub_sub, ← Nat.mul_succ] at hrest
    obtain ⟨s', hs', hlen, hout⟩ := ih h₁ hrest (by omega)
    refine ⟨s', ?_, hlen, ?_⟩
    · rw [cfbRounds, hs₁, Option.bind_some, hs']
    · rw [hout, cfbWritten, List.append_assoc, List.drop_drop]
      rfl

/-- What a round that ends has computed. -/
theorem cfbRound_isCInt {s s' : CfbLoop} (h : cfbRound feedback w iv inData s = some s') :
    s'.r = s.r + 1 ∧ IsCInt (s.r * 16 + 16) := by
  simp only [cfbRound, Option.bind_eq_bind, Option.bind_eq_some_iff] at h
  obtain ⟨_, _, stop, hstop, _, _, r, hr, hs'⟩ := h
  refine ⟨?_, (eq_of_cInt hstop).2⟩
  rw [← Option.some.inj hs']
  exact (eq_of_cInt hr).1

/-- The last round of a run that ends has computed its `end`. -/
theorem cfbRounds_isCInt {k : ℕ} {s s' : CfbLoop}
    (h : cfbRounds feedback w iv inData (k + 1) s = some s') :
    IsCInt ((s.r + k) * 16 + 16) := by
  induction k generalizing s with
  | zero =>
    rw [cfbRounds, Option.bind_eq_some_iff] at h
    obtain ⟨s₁, hs₁, -⟩ := h
    simpa using (cfbRound_isCInt hs₁).2
  | succ k ih =>
    rw [cfbRounds, Option.bind_eq_some_iff] at h
    obtain ⟨s₁, hs₁, h₁⟩ := h
    have hlast := ih h₁
    rw [(cfbRound_isCInt hs₁).1] at hlast
    push_cast
    rwa [add_comm (k : ℤ) 1, ← add_assoc]

/-- Up to `2 ^ 31 - 16` bytes the loop ends. -/
theorem cfbLoop_eq (key : AesBlock) (hlength : inData.length ≤ 2147483632) :
    cfbLoop feedback key iv inData = some ((inData.length : ℤ),
      cfbWritten feedback (keyExpansion key) (FeedbackMode.rounds 16 inData.length) iv inData) := by
  have hbefore : CfbLoop.Before
      { firstRound := true, r := 0, outLen := 0, input := Vector.replicate 16 0,
        outData := List.replicate inData.length 0 } iv inData 0 iv [] :=
    ⟨rfl, by simp, rfl, by simp, rfl⟩
  have hrounds : 16 * (0 + FeedbackMode.rounds 16 inData.length) < 2 ^ 31 := by
    unfold FeedbackMode.rounds
    split <;> omega
  obtain ⟨s', hs', hlen, hout⟩ := cfbRounds_before feedback
    (keyExpansion key) ⟨by omega, by omega⟩ hbefore rfl hrounds
  rw [Nat.mul_zero, Nat.sub_zero] at hs'
  rw [cfbLoop, hs', Option.map_some, hlen, hout]
  rfl

/-- Above, `end` overflows in the last round. -/
theorem cfbLoop_eq_none (key : AesBlock) (hlength : 2147483632 < inData.length) :
    cfbLoop feedback key iv inData = none := by
  rw [cfbLoop, Option.map_eq_none_iff, Option.eq_none_iff_forall_ne_some]
  intro s' hs'
  obtain ⟨k, hk⟩ : ∃ k, FeedbackMode.rounds 16 inData.length = k + 1 := by
    refine Nat.exists_eq_succ_of_ne_zero fun hzero => ?_
    have := FeedbackMode.eq_zero_of_rounds hzero
    omega
  rw [hk] at hs'
  have hlast : (0 + (k : ℤ)) * 16 + 16 < 2 ^ 31 := (cfbRounds_isCInt hs').2
  unfold FeedbackMode.rounds at hk
  split at hk <;> omega

/-- Up to `2 ^ 31 - 16` bytes `AES_128_CFB_Encrypt` computes `AES128CFBEncrypt`. -/
theorem AES128CFBEncryptLoop_eq (key iv : AesBlock) {inData : Bytes}
    (hlength : inData.length ≤ 2147483632) : AES128CFBEncryptLoop key iv inData =
      some ((inData.length : ℤ), AES128CFBEncrypt key iv inData) := by
  have hwritten (k : ℕ) (prev : AesBlock) (data : Bytes) :
      cfbWritten (fun _ block => block) (keyExpansion key) k prev data =
        FeedbackMode.encryptRounds 0 (· ^^^ ·) (cipher (keyExpansion key)) k prev data := by
    induction k generalizing prev data with
    | zero => rfl
    | succ k ih => rw [cfbWritten, FeedbackMode.encryptRounds, ih, cfbBlock]
  rw [AES128CFBEncryptLoop, cfbLoop_eq key hlength, hwritten]
  rfl

/-- Up to `2 ^ 31 - 16` bytes `AES_128_CFB_Decrypt` computes `AES128CFBDecrypt`. -/
theorem AES128CFBDecryptLoop_eq (key iv : AesBlock) {inData : Bytes}
    (hlength : inData.length ≤ 2147483632) : AES128CFBDecryptLoop key iv inData =
      some ((inData.length : ℤ), AES128CFBDecrypt key iv inData) := by
  have hwritten (k : ℕ) (prev : AesBlock) (data : Bytes) :
      cfbWritten (fun text _ => text) (keyExpansion key) k prev data =
        FeedbackMode.decryptRounds 0 (· ^^^ ·) (cipher (keyExpansion key)) k prev data := by
    induction k generalizing prev data with
    | zero => rfl
    | succ k ih => rw [cfbWritten, FeedbackMode.decryptRounds, ih, cfbBlock]
  rw [AES128CFBDecryptLoop, cfbLoop_eq key hlength, hwritten]
  rfl

/-! ### The loops and the standard -/

/-- `AES_128_CFB_Encrypt` implements the standard exactly for the texts whose last round does not
overflow. -/
theorem AES128CFBEncryptLoop_standard_iff (key iv : AesBlock) (inData : Bytes) :
    (∃ n outData, AES128CFBEncryptLoop key iv inData = some (n, outData) ∧
      IsStandardCfb key iv inData n outData) ↔ inData.length ≤ 2147483632 := by
  constructor
  · rintro ⟨n, outData, hrun, -⟩
    by_contra hlong
    rw [AES128CFBEncryptLoop, cfbLoop_eq_none key (Nat.lt_of_not_le hlong)] at hrun
    cases hrun
  · intro hshort
    exact ⟨_, _, AES128CFBEncryptLoop_eq key iv hshort, isStandardCfb_encrypt key iv inData⟩

/-- The longest text that an `int` can state is not encrypted. -/
theorem not_standard_longest :
    ¬ ∀ (key iv : AesBlock) (inData : Bytes), IsCInt inData.length →
      ∃ n outData, AES128CFBEncryptLoop key iv inData = some (n, outData) ∧
        IsStandardCfb key iv inData n outData := by
  intro h
  have hlength : (List.replicate 2147483647 (0 : UInt8)).length = 2147483647 :=
    List.length_replicate
  obtain ⟨n, outData, hrun, -⟩ := h aesIv aesIv (List.replicate 2147483647 0)
    ⟨by omega, by omega⟩
  rw [AES128CFBEncryptLoop, cfbLoop_eq_none aesIv (by omega)] at hrun
  cases hrun

/-! ### The round trips -/

/-- Each function undoes the other, and both return the length. -/
def CfbInverse (key iv : AesBlock) (data : Bytes) : Prop :=
  (∃ enc, AES128CFBEncryptLoop key iv data = some ((data.length : ℤ), enc) ∧
    AES128CFBDecryptLoop key iv enc = some ((data.length : ℤ), data)) ∧
  ∃ dec, AES128CFBDecryptLoop key iv data = some ((data.length : ℤ), dec) ∧
    AES128CFBEncryptLoop key iv dec = some ((data.length : ℤ), data)

theorem cfbInverse_of_length (key iv : AesBlock) {data : Bytes}
    (hlength : data.length ≤ 2147483632) : CfbInverse key iv data := by
  have henc : (AES128CFBEncrypt key iv data).length = data.length :=
    FeedbackMode.length_encrypt _ _ _ (by decide) _ _
  have hdec : (AES128CFBDecrypt key iv data).length = data.length :=
    FeedbackMode.length_decrypt _ _ _ (by decide) _ _
  refine ⟨⟨_, AES128CFBEncryptLoop_eq key iv hlength, ?_⟩,
    ⟨_, AES128CFBDecryptLoop_eq key iv hlength, ?_⟩⟩
  · rw [AES128CFBDecryptLoop_eq key iv (by rwa [henc]), henc, AES128CFBEncrypt, AES128CFBDecrypt,
      FeedbackMode.decrypt_encrypt _ _ _ xor_xor_cancel (by decide)]
  · rw [AES128CFBEncryptLoop_eq key iv (by rwa [hdec]), hdec, AES128CFBEncrypt, AES128CFBDecrypt,
      FeedbackMode.encrypt_decrypt _ _ _ xor_xor_cancel (by decide)]

/-- The loops undo each other exactly for the texts whose last round does not overflow. -/
theorem cfbInverse_iff (key iv : AesBlock) (data : Bytes) :
    CfbInverse key iv data ↔ data.length ≤ 2147483632 := by
  refine ⟨?_, cfbInverse_of_length key iv⟩
  rintro ⟨⟨enc, hrun, -⟩, -⟩
  by_contra hlong
  rw [AES128CFBEncryptLoop, cfbLoop_eq_none key (Nat.lt_of_not_le hlong)] at hrun
  cases hrun

/-- The longest text that an `int` can state does not come back. -/
theorem not_cfbInverse_longest :
    ¬ ∀ (key iv : AesBlock) (data : Bytes), IsCInt data.length → CfbInverse key iv data := by
  intro h
  have hlength : (List.replicate 2147483647 (0 : UInt8)).length = 2147483647 :=
    List.length_replicate
  obtain ⟨⟨enc, hrun, -⟩, -⟩ := h aesIv aesIv (List.replicate 2147483647 0) ⟨by omega, by omega⟩
  rw [AES128CFBEncryptLoop, cfbLoop_eq_none aesIv (by omega)] at hrun
  cases hrun

end BiometricAuth
