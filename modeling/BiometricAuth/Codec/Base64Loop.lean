import BiometricAuth.Codec.Base64
import BiometricAuth.Common.CInt

/-!
# The loops of Base64

`bio_base64_encode` and `bio_base64_decode` with the indices of the source, where
`bioBase64Encode` and `bioBase64Decode` go through lists. The encoder counts the characters in the
`int` `j`, the decoder the characters in the `int` `i`; both may overflow (`none`). The decoder
reads a string with its terminator, and a read behind the terminator is `none` as well.

* `encodeLoop_eq`, `decodeLoop_eq` — the loops and the lists;
* `base64_iff` — for which lengths the two functions undo each other;
* `decodesInside_iff` — for which strings the decoder stays inside.
-/

namespace BiometricAuth

/-! ### The loops -/

/-- `base64[j++] = c`, where `j` characters have been written. -/
def storeChar (base64 : Bytes) (c : UInt8) : Option Bytes :=
  (cInt (base64.length + 1)).map fun _ => base64 ++ [c]

/-- The loop of `bio_base64_encode` from index `i` on. -/
def encodeLoop (binData : Bytes) (i : ℕ) (base64 : Bytes) : Option Bytes :=
  if i < binData.length then do
    let b₀ := binData.getD i 0
    let base64 ← storeChar base64 (base64Of (current0 b₀))
    if i + 1 ≥ binData.length then
      let base64 ← storeChar base64 (base64Of (current1 b₀))
      let base64 ← storeChar base64 base64Pad
      storeChar base64 base64Pad
    else
      let b₁ := binData.getD (i + 1) 0
      let base64 ← storeChar base64
        (base64Of (current1 b₀ ||| ((b₁ >>> (4 : UInt8)) &&& 0x0F)))
      if i + 2 ≥ binData.length then
        let base64 ← storeChar base64 (base64Of (current2 b₁))
        storeChar base64 base64Pad
      else
        let b₂ := binData.getD (i + 2) 0
        let base64 ← storeChar base64
          (base64Of (current2 b₁ ||| ((b₂ >>> (6 : UInt8)) &&& 0x03)))
        let base64 ← storeChar base64 (base64Of (b₂ &&& 0x3F))
        encodeLoop binData (i + 3) base64
  else some base64
termination_by binData.length - i

/-- `strlen`. -/
def strlen (s : Bytes) : ℕ := (s.takeWhile (· ≠ 0)).length

/-- `bio_base64_encode`: the number it returns, and what it has written with the terminator. -/
def bioBase64EncodeLoop (binData : Bytes) : Option (ℤ × Bytes) :=
  (encodeLoop binData 0 []).map fun base64 => ((strlen (base64 ++ [0]) : ℤ), base64 ++ [0])

/-- The loop of `bio_base64_decode` from index `i` on. `base64[k]` is there up to the terminator,
which is at index `base64.length`. -/
def decodeLoop (base64 : Bytes) (i : ℕ) (binData : Bytes) : Option Bytes :=
  if base64.length < i then none
  else if base64.getD i 0 = 0 then some binData
  -- all of the group is looked up before anything of it is tested
  else if base64.length < i + 3 then none
  else
    let temp (k : ℕ) : UInt8 := sextet (base64.getD (i + k) 0)
    let binData := binData ++ [octet0 (temp 0) (temp 1)]
    if base64.getD (i + 2) 0 = base64Pad then some binData
    else
      let binData := binData ++ [octet1 (temp 1) (temp 2)]
      if base64.getD (i + 3) 0 = base64Pad then some binData
      else
        let binData := binData ++ [octet2 (temp 2) (temp 3)]
        if IsCInt (i + 4) then decodeLoop base64 (i + 4) binData else none
termination_by base64.length + 1 - i

/-- `bio_base64_decode`: the number it returns, and what it has written. -/
def bioBase64DecodeLoop (base64 : Bytes) : Option (ℤ × Bytes) :=
  (decodeLoop base64 0 []).map fun binData => ((binData.length : ℤ), binData)

/-! ### The encoder -/

theorem storeChar_eq (base64 : Bytes) (c : UInt8) :
    storeChar base64 c = if base64.length + 1 < 2 ^ 31 then some (base64 ++ [c]) else none := by
  unfold storeChar cInt
  by_cases hfits : base64.length + 1 < 2 ^ 31
  · rw [if_pos hfits, if_pos ⟨by omega, by omega⟩, Option.map_some]
  · rw [if_neg hfits, if_neg fun hint => hfits (by have := hint.2; omega), Option.map_none]

/-- Characters written one after the other. -/
theorem foldlM_storeChar (chars base64 : Bytes) :
    chars.foldlM storeChar base64 =
      if chars = [] ∨ base64.length + chars.length < 2 ^ 31 then some (base64 ++ chars)
      else none := by
  induction chars generalizing base64 with
  | nil => simp
  | cons c chars ih =>
    rw [List.foldlM_cons, storeChar_eq, List.length_cons]
    by_cases hfits : base64.length + (chars.length + 1) < 2 ^ 31
    · rw [if_pos (by omega), if_pos (Or.inr hfits), Option.bind_eq_bind, Option.bind_some, ih,
        if_pos (Or.inr (by rw [List.length_append, List.length_singleton]; omega)),
        List.append_assoc, List.singleton_append]
    · rw [if_neg (show ¬ (c :: chars = [] ∨ _) by simpa using Nat.le_of_not_lt hfits)]
      by_cases hfirst : base64.length + 1 < 2 ^ 31
      · -- one of the later characters is too many
        have hne : chars ≠ [] := by
          rintro rfl
          exact hfits hfirst
        rw [if_pos hfirst, Option.bind_eq_bind, Option.bind_some, ih, if_neg]
        rw [List.length_append, List.length_singleton]
        exact not_or.mpr ⟨hne, by omega⟩
      · rw [if_neg hfirst]
        rfl

theorem getD_add (l : Bytes) (i k : ℕ) : l.getD (i + k) 0 = (l.drop i).getD k 0 := by
  simp [List.getD_eq_getElem?_getD]

/-- **Encoder loop.** It writes what `bioBase64Encode` makes of the bytes that are left. -/
theorem encodeLoop_eq_foldlM (binData : Bytes) (i : ℕ) (base64 : Bytes) :
    encodeLoop binData i base64 = (bioBase64Encode (binData.drop i)).foldlM storeChar base64 := by
  generalize hrest : binData.drop i = rest
  -- by the groups of the encoder: no byte is left, one, two, or three and more
  induction rest using bioBase64Encode.induct generalizing i base64 with
  | case1 =>
    rw [List.drop_eq_nil_iff] at hrest
    rw [encodeLoop, if_neg (by omega)]
    rfl
  | case2 b₀ =>
    -- one byte: two characters and the padding
    have hlength := congrArg List.length hrest
    rw [List.length_drop, List.length_singleton] at hlength
    have h₀ : binData.getD i 0 = b₀ := by rw [← Nat.add_zero i, getD_add, hrest]; rfl
    have hlast : i + 1 ≥ binData.length := by omega
    rw [encodeLoop, if_pos (by omega)]
    simp only [h₀, if_pos hlast, bioBase64Encode, List.foldlM_cons, List.foldlM_nil, bind_pure]
  | case3 b₀ b₁ =>
    -- two bytes: three characters and the padding
    have hlength := congrArg List.length hrest
    rw [List.length_drop] at hlength
    have h₀ : binData.getD i 0 = b₀ := by rw [← Nat.add_zero i, getD_add, hrest]; rfl
    have h₁ : binData.getD (i + 1) 0 = b₁ := by rw [getD_add, hrest]; rfl
    simp only [List.length_cons, List.length_nil] at hlength
    have hmore : ¬ i + 1 ≥ binData.length := by omega
    have hlast : i + 2 ≥ binData.length := by omega
    rw [encodeLoop, if_pos (by omega)]
    simp only [h₀, h₁, if_neg hmore, if_pos hlast, bioBase64Encode, List.foldlM_cons,
      List.foldlM_nil, bind_pure]
  | case4 b₀ b₁ b₂ rest ih =>
    -- three bytes: four characters, and the loop goes on
    have hlength := congrArg List.length hrest
    rw [List.length_drop] at hlength
    have h₀ : binData.getD i 0 = b₀ := by rw [← Nat.add_zero i, getD_add, hrest]; rfl
    have h₁ : binData.getD (i + 1) 0 = b₁ := by rw [getD_add, hrest]; rfl
    have h₂ : binData.getD (i + 2) 0 = b₂ := by rw [getD_add, hrest]; rfl
    have hnext : binData.drop (i + 3) = rest := by rw [← List.drop_drop, hrest]; rfl
    simp only [List.length_cons] at hlength
    have hmore : ¬ i + 1 ≥ binData.length := by omega
    have hmore' : ¬ i + 2 ≥ binData.length := by omega
    rw [encodeLoop, if_pos (by omega), bioBase64Encode]
    simp only [h₀, h₁, h₂, if_neg hmore, if_neg hmore', ih _ _ hnext, List.foldlM_cons]

/-- What is written, if `j` can count it. -/
theorem encodeLoop_eq (binData : Bytes) :
    encodeLoop binData 0 [] =
      if 4 * ((binData.length + 2) / 3) < 2 ^ 31 then some (bioBase64Encode binData) else none := by
  rw [encodeLoop_eq_foldlM, List.drop_zero, foldlM_storeChar, List.length_nil, Nat.zero_add,
    length_bioBase64Encode, List.nil_append]
  congr 1
  rw [eq_iff_iff, or_iff_right_iff_imp]
  intro hempty
  rw [← length_bioBase64Encode, hempty]
  norm_num

/-- No character of the alphabet is the terminator: that would be looked up as `0xFF`. -/
theorem base64Of_ne_zero {t : UInt8} (ht : t &&& 0x3F = t) : base64Of t ≠ 0 := by
  intro hzero
  have hlookup := (sextet_base64Of ht).1
  rw [hzero, show sextet 0 = 0xFF by decide] at hlookup
  rw [← hlookup] at ht
  exact absurd ht (by decide)

theorem zero_notMem_bioBase64Encode (binData : Bytes) : 0 ∉ bioBase64Encode binData := by
  induction binData using bioBase64Encode.induct with
  | case1 => simp [bioBase64Encode]
  | case2 b₀ =>
    simp [bioBase64Encode, (base64Of_ne_zero (current0_lt b₀)).symm,
      (base64Of_ne_zero (current1_lt b₀)).symm, base64Pad]
  | case3 b₀ b₁ =>
    simp [bioBase64Encode, (base64Of_ne_zero (current0_lt b₀)).symm,
      (base64Of_ne_zero (current1_or_lt b₀ b₁)).symm,
      (base64Of_ne_zero (current2_lt b₁)).symm, base64Pad]
  | case4 b₀ b₁ b₂ rest ih =>
    simp [bioBase64Encode, (base64Of_ne_zero (current0_lt b₀)).symm,
      (base64Of_ne_zero (current1_or_lt b₀ b₁)).symm,
      (base64Of_ne_zero (current2_or_lt b₁ b₂)).symm,
      (base64Of_ne_zero (last_lt b₂)).symm, ih]

theorem strlen_append_zero {s : Bytes} (hs : 0 ∉ s) : strlen (s ++ [0]) = s.length := by
  have hall : ∀ c ∈ s, decide (c ≠ 0) = true := fun c hc => by
    simpa using ne_of_mem_of_not_mem hc hs
  rw [strlen, List.takeWhile_append_of_pos hall]
  simp

/-- `bio_base64_encode` returns the number of characters, or `j` overflows. -/
theorem bioBase64EncodeLoop_eq (binData : Bytes) :
    bioBase64EncodeLoop binData =
      if 4 * ((binData.length + 2) / 3) < 2 ^ 31 then
        some (((4 * ((binData.length + 2) / 3) : ℕ) : ℤ), bioBase64Encode binData ++ [0])
      else none := by
  rw [bioBase64EncodeLoop, encodeLoop_eq]
  split
  · rw [Option.map_some, strlen_append_zero (zero_notMem_bioBase64Encode binData),
      length_bioBase64Encode]
  · rfl

/-! ### The decoder -/

section Decoder

variable {base64 : Bytes} {i : ℕ}

/-- Behind the terminator nothing may be read. -/
theorem decodeLoop_outside (hi : base64.length < i) (binData : Bytes) :
    decodeLoop base64 i binData = none := by
  rw [decodeLoop, if_pos hi]

/-- At the terminator the loop ends. -/
theorem decodeLoop_nil (hi : i ≤ base64.length) (hrest : base64.drop i = []) (binData : Bytes) :
    decodeLoop base64 i binData = some binData := by
  have hend : base64.getD i 0 = 0 :=
    List.getD_eq_default _ _ (List.drop_eq_nil_iff.mp hrest)
  rw [decodeLoop, if_neg (Nat.not_lt.mpr hi), if_pos hend]

/-- A group of one or two characters is read past its end. -/
theorem decodeLoop_short (hzero : 0 ∉ base64) (hi : i < base64.length)
    (hrest : base64.length < i + 3) (binData : Bytes) : decodeLoop base64 i binData = none := by
  have hne : base64.getD i 0 ≠ 0 := by
    rw [List.getD_eq_getElem _ _ hi]
    exact ne_of_mem_of_not_mem (List.getElem_mem hi) hzero
  rw [decodeLoop, if_neg (Nat.not_lt.mpr hi.le), if_neg hne, if_pos hrest]

/-- A group of three characters or more. -/
theorem decodeLoop_group (hzero : 0 ∉ base64) {c₀ c₁ c₂ : UInt8} {rest : Bytes}
    (hrest : base64.drop i = c₀ :: c₁ :: c₂ :: rest) (binData : Bytes) :
    decodeLoop base64 i binData =
      if c₂ = base64Pad then some (binData ++ [octet0 (sextet c₀) (sextet c₁)])
      else if rest.getD 0 0 = base64Pad then
        some (binData ++ [octet0 (sextet c₀) (sextet c₁)] ++ [octet1 (sextet c₁) (sextet c₂)])
      else if IsCInt (i + 4) then
        decodeLoop base64 (i + 4) (binData ++ [octet0 (sextet c₀) (sextet c₁)] ++
          [octet1 (sextet c₁) (sextet c₂)] ++ [octet2 (sextet c₂) (sextet (rest.getD 0 0))])
      else none := by
  have hlength := congrArg List.length hrest
  simp only [List.length_drop, List.length_cons] at hlength
  have h₀ : base64.getD (i + 0) 0 = c₀ := by rw [getD_add, hrest]; rfl
  have h₁ : base64.getD (i + 1) 0 = c₁ := by rw [getD_add, hrest]; rfl
  have h₂ : base64.getD (i + 2) 0 = c₂ := by rw [getD_add, hrest]; rfl
  have h₃ : base64.getD (i + 3) 0 = rest.getD 0 0 := by rw [getD_add, hrest]; rfl
  have hne : base64.getD i 0 ≠ 0 := by
    rw [List.getD_eq_getElem _ _ (by omega)]
    exact ne_of_mem_of_not_mem (List.getElem_mem _) hzero
  rw [decodeLoop, if_neg (by omega), if_neg hne, if_neg (by omega)]
  simp only [h₀, h₁, h₂, h₃]

/-- **Decoder loop.** Below `2 ^ 31` characters it writes what `bioBase64Decode` makes of the
characters that are left. -/
theorem decodeLoop_eq (hzero : 0 ∉ base64) (hint : base64.length < 2 ^ 31) (i : ℕ)
    (hi : i ≤ base64.length) (binData : Bytes) :
    decodeLoop base64 i binData =
      (bioBase64Decode (base64.drop i)).map fun data => binData ++ data := by
  generalize hrest : base64.drop i = rest
  have hlength : base64.length - i = rest.length := by rw [← hrest, List.length_drop]
  -- by the groups of the decoder
  induction rest using bioBase64Decode.induct generalizing i binData with
  | case1 => rw [decodeLoop_nil hi hrest, bioBase64Decode, Option.map_some, List.append_nil]
  | case2 c₀ c₁ =>
    -- the padding begins at the third character
    rw [decodeLoop_group hzero hrest, if_pos rfl, bioBase64Decode, if_pos rfl, Option.map_some]
  | case3 c₀ c₁ c₂ hpad =>
    -- the loop goes on behind the terminator
    simp only [List.length_cons, List.length_nil] at hlength
    rw [decodeLoop_group hzero hrest, if_neg hpad, if_neg (by decide), bioBase64Decode,
      if_neg hpad, Option.map_none]
    split
    · exact decodeLoop_outside (by omega) _
    · rfl
  | case4 c₀ c₁ c₃ rest =>
    rw [decodeLoop_group hzero hrest, if_pos rfl, bioBase64Decode, if_pos rfl, Option.map_some]
  | case5 c₀ c₁ c₂ rest hpad =>
    have hlast : (base64Pad :: rest).getD 0 0 = base64Pad := rfl
    rw [decodeLoop_group hzero hrest, if_neg hpad, if_pos hlast, bioBase64Decode, if_neg hpad,
      if_pos rfl, Option.map_some, List.append_assoc]
    rfl
  | case6 c₀ c₁ c₂ c₃ rest hpad hpad' ih =>
    -- a whole group, and the loop goes on
    simp only [List.length_cons] at hlength
    have hnext : base64.drop (i + 4) = rest := by rw [← List.drop_drop, hrest]; rfl
    have hlast : ¬ (c₃ :: rest).getD 0 0 = base64Pad := hpad'
    rw [decodeLoop_group hzero hrest, if_neg hpad, if_neg hlast, if_pos ⟨by omega, by omega⟩,
      ih (i + 4) (by omega) _ hnext (by omega), bioBase64Decode, if_neg hpad, if_neg hpad',
      Option.map_map]
    congr 1
    funext data
    simp
  | case7 rest hnil hthree hfour =>
    -- one or two characters are left, and the loop reads behind them
    have hnone : rest.length < 3 ∧ rest ≠ [] ∧ bioBase64Decode rest = none := by
      rcases rest with _ | ⟨c₀, _ | ⟨c₁, _ | ⟨c₂, _ | ⟨c₃, rest⟩⟩⟩⟩
      · exact (hnil rfl).elim
      · exact ⟨by simp, by simp, rfl⟩
      · exact ⟨by simp, by simp, rfl⟩
      · exact (hthree _ _ _ rfl).elim
      · exact (hfour _ _ _ _ _ rfl).elim
    obtain ⟨hshort, hne, hnone⟩ := hnone
    have hpos := List.length_pos_of_ne_nil hne
    rw [decodeLoop_short hzero (by omega) (by omega), hnone, Option.map_none]

end Decoder

/-! ### Canonical strings -/

/-- The number of `=` behind a body; with one or two of them, the bits of its last character that
belong to no byte are zero. -/
def PadOk (body : Bytes) (pad : ℕ) : Prop :=
  pad = 0 ∨ pad = 1 ∧ (∀ c ∈ body.getLast?, sextet c &&& 0x03 = 0) ∨
    pad = 2 ∧ ∀ c ∈ body.getLast?, sextet c &&& 0x0F = 0

/-- The canonical strings: characters of the alphabet and at most two `=` behind them, a multiple
of four in all. -/
def IsCanonicalBase64 (s : Bytes) : Prop :=
  s.length % 4 = 0 ∧ ∃ (body : Bytes) (pad : ℕ), s = body ++ List.replicate pad base64Pad ∧
    (∀ c ∈ body, c ∈ base64char) ∧ PadOk body pad

/-- Characters of the alphabet are looked up as what they stand for. -/
theorem sextet_of_mem : ∀ c ∈ base64char, base64Of (sextet c) = c ∧
    sextet c &&& 0x3F = sextet c ∧ c ≠ base64Pad ∧ c ≠ 0 := by
  decide +kernel

/-- Where the unused bits are zero the mask of the used ones changes nothing. -/
theorem sextet_of_unused : ∀ c ∈ base64char,
    (sextet c &&& 0x03 = 0 → sextet c &&& 0x3C = sextet c) ∧
      (sextet c &&& 0x0F = 0 → sextet c &&& 0x30 = sextet c) := by
  decide +kernel

section Bits

variable (a b c d : UInt8)

/-! How the four characters of a group come back, bit by bit. The mask `0xF0` of the third byte
lets two bits more through than it has to; they are zero after the shift. -/

theorem current0_octet0 : current0 (octet0 (a &&& 0x3F) b) = a &&& 0x3F := by
  apply UInt8.toBitVec_inj.mp
  ext i hi
  interval_cases i <;> simp [octet0, current0]

theorem current1_octet : current1 (octet0 a (b &&& 0x3F)) |||
    ((octet1 (b &&& 0x3F) c >>> (4 : UInt8)) &&& 0x0F) = b &&& 0x3F := by
  apply UInt8.toBitVec_inj.mp
  ext i hi
  interval_cases i <;> simp [octet0, octet1, current1]

theorem current2_octet : current2 (octet1 b (c &&& 0x3F)) |||
    ((octet2 (c &&& 0x3F) d >>> (6 : UInt8)) &&& 0x03) = c &&& 0x3F := by
  apply UInt8.toBitVec_inj.mp
  ext i hi
  interval_cases i <;> simp [octet1, octet2, current2]

theorem last_octet2 : octet2 c (d &&& 0x3F) &&& 0x3F = d &&& 0x3F := by
  apply UInt8.toBitVec_inj.mp
  ext i hi
  interval_cases i <;> simp [octet2]

theorem current1_octet0 : current1 (octet0 a (b &&& 0x30)) = b &&& 0x30 := by
  apply UInt8.toBitVec_inj.mp
  ext i hi
  interval_cases i <;> simp [octet0, current1]

theorem current2_octet1 : current2 (octet1 b (c &&& 0x3C)) = c &&& 0x3C := by
  apply UInt8.toBitVec_inj.mp
  ext i hi
  interval_cases i <;> simp [octet1, current2]

end Bits

/-- A full group comes back from its three bytes. -/
theorem bioBase64Encode_group {c₀ c₁ c₂ c₃ : UInt8} (h₀ : c₀ ∈ base64char) (h₁ : c₁ ∈ base64char)
    (h₂ : c₂ ∈ base64char) (h₃ : c₃ ∈ base64char) (data : Bytes) :
    bioBase64Encode (octet0 (sextet c₀) (sextet c₁) :: octet1 (sextet c₁) (sextet c₂) ::
      octet2 (sextet c₂) (sextet c₃) :: data) = c₀ :: c₁ :: c₂ :: c₃ :: bioBase64Encode data := by
  obtain ⟨hof₀, hmask₀, -⟩ := sextet_of_mem c₀ h₀
  obtain ⟨hof₁, hmask₁, -⟩ := sextet_of_mem c₁ h₁
  obtain ⟨hof₂, hmask₂, -⟩ := sextet_of_mem c₂ h₂
  obtain ⟨hof₃, hmask₃, -⟩ := sextet_of_mem c₃ h₃
  rw [bioBase64Encode, ← hmask₀, current0_octet0, ← hmask₁, current1_octet, ← hmask₂,
    current2_octet, ← hmask₃, last_octet2, hmask₀, hmask₁, hmask₂, hmask₃, hof₀, hof₁, hof₂, hof₃]

/-- So does a group with one `=`. -/
theorem bioBase64Encode_group_one {c₀ c₁ c₂ : UInt8} (h₀ : c₀ ∈ base64char)
    (h₁ : c₁ ∈ base64char) (h₂ : c₂ ∈ base64char) (hlast : sextet c₂ &&& 0x03 = 0) :
    bioBase64Encode [octet0 (sextet c₀) (sextet c₁), octet1 (sextet c₁) (sextet c₂)] =
      [c₀, c₁, c₂, base64Pad] := by
  obtain ⟨hof₀, hmask₀, -⟩ := sextet_of_mem c₀ h₀
  obtain ⟨hof₁, hmask₁, -⟩ := sextet_of_mem c₁ h₁
  obtain ⟨hof₂, -⟩ := sextet_of_mem c₂ h₂
  have hmask₂ := (sextet_of_unused c₂ h₂).1 hlast
  rw [bioBase64Encode, ← hmask₀, current0_octet0, ← hmask₁, current1_octet, ← hmask₂,
    current2_octet1, hmask₀, hmask₁, hmask₂, hof₀, hof₁, hof₂]

/-- And one with two. -/
theorem bioBase64Encode_group_two {c₀ c₁ : UInt8} (h₀ : c₀ ∈ base64char)
    (h₁ : c₁ ∈ base64char) (hlast : sextet c₁ &&& 0x0F = 0) :
    bioBase64Encode [octet0 (sextet c₀) (sextet c₁)] = [c₀, c₁, base64Pad, base64Pad] := by
  obtain ⟨hof₀, hmask₀, -⟩ := sextet_of_mem c₀ h₀
  obtain ⟨hof₁, -⟩ := sextet_of_mem c₁ h₁
  have hmask₁ := (sextet_of_unused c₁ h₁).2 hlast
  rw [bioBase64Encode, ← hmask₀, current0_octet0, ← hmask₁, current1_octet0, hmask₀, hmask₁,
    hof₀, hof₁]

/-- **Group by group** a canonical string decodes to bytes that are encoded as the string. -/
theorem bioBase64Encode_decode_body (pad : ℕ) : ∀ body : Bytes, (body.length + pad) % 4 = 0 →
    (∀ c ∈ body, c ∈ base64char) → PadOk body pad →
    ∃ data, bioBase64Decode (body ++ List.replicate pad base64Pad) = some data ∧
      bioBase64Encode data = body ++ List.replicate pad base64Pad
  | [], hlength, _, hpad => by
    -- nothing is left
    have hzero : pad = 0 := by
      rw [List.length_nil] at hlength
      rcases hpad with hpad | ⟨hpad, -⟩ | ⟨hpad, -⟩ <;> omega
    subst hzero
    exact ⟨[], rfl, rfl⟩
  | [c₀], hlength, _, hpad => by
    -- one character is no group
    rw [List.length_singleton] at hlength
    rcases hpad with hpad | ⟨hpad, -⟩ | ⟨hpad, -⟩ <;> omega
  | [c₀, c₁], hlength, hbody, hpad => by
    -- two characters need two of padding
    simp only [List.length_cons, List.length_nil] at hlength
    rcases hpad with rfl | ⟨rfl, -⟩ | ⟨rfl, hlast⟩
    · omega
    · omega
    · exact ⟨[octet0 (sextet c₀) (sextet c₁)], rfl,
        bioBase64Encode_group_two (hbody c₀ (by simp)) (hbody c₁ (by simp)) (hlast c₁ rfl)⟩
  | [c₀, c₁, c₂], hlength, hbody, hpad => by
    -- three characters need one of padding
    simp only [List.length_cons, List.length_nil] at hlength
    rcases hpad with rfl | ⟨rfl, hlast⟩ | ⟨rfl, -⟩
    · omega
    · have h₂ := hbody c₂ (by simp)
      obtain ⟨-, -, hne, -⟩ := sextet_of_mem c₂ h₂
      refine ⟨[octet0 (sextet c₀) (sextet c₁), octet1 (sextet c₁) (sextet c₂)], ?_,
        bioBase64Encode_group_one (hbody c₀ (by simp)) (hbody c₁ (by simp)) h₂ (hlast c₂ rfl)⟩
      change bioBase64Decode [c₀, c₁, c₂, base64Pad] = _
      rw [bioBase64Decode, if_neg hne, if_pos rfl]
    · omega
  | c₀ :: c₁ :: c₂ :: c₃ :: body, hlength, hbody, hpad => by
    -- a whole group, and the rest by induction
    have hlength' : (body.length + pad) % 4 = 0 := by
      simp only [List.length_cons] at hlength
      omega
    have hpad' : PadOk body pad := by
      -- the last character of the rest is the last one of all
      have hend : ∀ c ∈ body.getLast?, c ∈ (c₀ :: c₁ :: c₂ :: c₃ :: body).getLast? := by
        intro c hc
        rw [show c₀ :: c₁ :: c₂ :: c₃ :: body = [c₀, c₁, c₂, c₃] ++ body from rfl,
          List.getLast?_append, Option.mem_def.mp hc]
        rfl
      exact hpad.imp_right (Or.imp (And.imp_right fun hlast c hc => hlast c (hend c hc))
        (And.imp_right fun hlast c hc => hlast c (hend c hc)))
    obtain ⟨data, hdecode, hencode⟩ := bioBase64Encode_decode_body pad body hlength'
      (fun c hc => hbody c (by simp [hc])) hpad'
    obtain ⟨-, -, hne₂, -⟩ := sextet_of_mem c₂ (hbody c₂ (by simp))
    obtain ⟨-, -, hne₃, -⟩ := sextet_of_mem c₃ (hbody c₃ (by simp))
    refine ⟨octet0 (sextet c₀) (sextet c₁) :: octet1 (sextet c₁) (sextet c₂) ::
      octet2 (sextet c₂) (sextet c₃) :: data, ?_, ?_⟩
    · simp only [List.cons_append, bioBase64Decode, if_neg hne₂, if_neg hne₃, hdecode,
        Option.map_some]
    · rw [bioBase64Encode_group (hbody c₀ (by simp)) (hbody c₁ (by simp)) (hbody c₂ (by simp))
        (hbody c₃ (by simp)), hencode]
      rfl

theorem IsCanonicalBase64.zero_notMem {s : Bytes} (h : IsCanonicalBase64 s) : 0 ∉ s := by
  obtain ⟨-, body, pad, rfl, hbody, -⟩ := h
  intro hmem
  rcases List.mem_append.mp hmem with hmem | hmem
  · exact (sextet_of_mem 0 (hbody 0 hmem)).2.2.2 rfl
  · exact absurd (List.eq_of_mem_replicate hmem) (by decide)

/-- **Canonical strings** come back from what they decode to. -/
theorem bioBase64Encode_decode {s : Bytes} (h : IsCanonicalBase64 s) :
    ∃ data, bioBase64Decode s = some data ∧ bioBase64Encode data = s := by
  obtain ⟨hlength, body, pad, rfl, hbody, hpad⟩ := h
  rw [List.length_append, List.length_replicate] at hlength
  exact bioBase64Encode_decode_body pad body hlength hbody hpad

/-! ### The bijection -/

/-- What encoding the bytes `b` is to do: as many characters as there are groups of three bytes
begun, four each, with the terminator; a buffer of twice the size and one has room for them from
two bytes on; and the text decodes to `b`. -/
def EncodesBack (b : Bytes) : Prop :=
  ∃ text, bioBase64EncodeLoop b = some (((4 * ((b.length + 2) / 3) : ℕ) : ℤ), text ++ [0]) ∧
    text.length = 4 * ((b.length + 2) / 3) ∧
    (2 ≤ b.length → (text ++ [0]).length ≤ b.length * 2 + 1) ∧
    bioBase64DecodeLoop text = some ((b.length : ℤ), b)

/-- What decoding the canonical string `s` is to do: encoding the bytes gives `s` again. -/
def DecodesBack (s : Bytes) : Prop :=
  IsCanonicalBase64 s → ∃ n data, bioBase64DecodeLoop s = some (n, data) ∧
    bioBase64EncodeLoop data = some ((s.length : ℤ), s ++ [0])

theorem encodesBack_of_length {b : Bytes} (hlength : 4 * ((b.length + 2) / 3) < 2 ^ 31) :
    EncodesBack b := by
  refine ⟨bioBase64Encode b, ?_, length_bioBase64Encode b, ?_, ?_⟩
  · rw [bioBase64EncodeLoop_eq, if_pos hlength]
  · rw [List.length_append, List.length_singleton, length_bioBase64Encode]
    omega
  · rw [bioBase64DecodeLoop, decodeLoop_eq (zero_notMem_bioBase64Encode b)
      (by rwa [length_bioBase64Encode]) 0 (Nat.zero_le _), List.drop_zero,
      bioBase64Decode_encode, Option.map_some, Option.map_some, List.nil_append]

theorem decodesBack_of_length {s : Bytes} (hlength : s.length < 2 ^ 31) : DecodesBack s := by
  intro hcanonical
  obtain ⟨data, hdecode, hencode⟩ := bioBase64Encode_decode hcanonical
  have hdata : 4 * ((data.length + 2) / 3) = s.length := by
    rw [← length_bioBase64Encode, hencode]
  refine ⟨(data.length : ℤ), data, ?_, ?_⟩
  · rw [bioBase64DecodeLoop, decodeLoop_eq hcanonical.zero_notMem hlength 0 (Nat.zero_le _),
      List.drop_zero, hdecode, Option.map_some, Option.map_some, List.nil_append]
  · rw [bioBase64EncodeLoop_eq, hdata, if_pos hlength, hencode]

/-- The two functions undo each other exactly where an `int` can count the characters. -/
theorem base64_iff (b s : Bytes) :
    (EncodesBack b ↔ b.length ≤ 1610612733) ∧
      (DecodesBack s ↔ (IsCanonicalBase64 s → s.length < 2 ^ 31)) := by
  constructor
  · refine ⟨?_, fun hlength => encodesBack_of_length (by omega)⟩
    rintro ⟨text, hrun, -⟩
    by_contra hlong
    rw [bioBase64EncodeLoop_eq, if_neg (by omega)] at hrun
    cases hrun
  · refine ⟨fun h hcanonical => ?_, fun hlength hcanonical =>
      decodesBack_of_length (hlength hcanonical) hcanonical⟩
    obtain ⟨n, data, -, hencode⟩ := h hcanonical
    rw [bioBase64EncodeLoop_eq] at hencode
    split at hencode
    · next hfits =>
      have hn := congrArg Prod.fst (Option.some.inj hencode)
      simp only at hn
      omega
    · cases hencode

/-- An `int` can state the length of these bytes, but not that of their text. -/
theorem not_encodesBack_long : ¬ ∀ b : Bytes, IsCInt b.length → EncodesBack b := by
  intro h
  have hlength : (List.replicate 1610612734 (0 : UInt8)).length = 1610612734 :=
    List.length_replicate
  obtain ⟨text, hrun, -⟩ := h (List.replicate 1610612734 0) ⟨by omega, by omega⟩
  rw [bioBase64EncodeLoop_eq, if_neg (by omega)] at hrun
  cases hrun

/-! ### Staying inside -/

/-- From a multiple of four on, either whole groups follow up to the terminator, which an `int` can
number, or a `=` ends a group before. -/
def StopsInside (base64 : Bytes) (i : ℕ) : Prop :=
  base64.length % 4 = 0 ∧ base64.length < 2 ^ 31 ∨
    ∃ p, i ≤ p ∧ p < 2 ^ 31 ∧ base64[p]? = some base64Pad ∧ 2 ≤ p % 4

/-- The bytes written from index `i` on: at most three for every group begun. -/
theorem decodeLoop_length {base64 : Bytes} {i : ℕ} (hmod : i % 4 = 0) {binData data : Bytes}
    (h : decodeLoop base64 i binData = some data) :
    data.length ≤ binData.length + 3 * ((base64.length + 3) / 4 - i / 4) := by
  fun_induction decodeLoop base64 i binData with
  | case1 | case3 | case7 => cases h
  | case2 =>
    obtain rfl := Option.some.inj h
    exact Nat.le_add_right _ _
  | case4 i binData hin hne hgroup temp binData₁ hpad =>
    obtain rfl := Option.some.inj h
    simp only [binData₁, List.length_append, List.length_singleton]
    omega
  | case5 i binData hin hne hgroup temp binData₁ hpad binData₂ hpad' =>
    obtain rfl := Option.some.inj h
    simp only [binData₂, binData₁, List.length_append, List.length_singleton]
    omega
  | case6 i binData hin hne hgroup temp binData₁ hpad binData₂ hpad' binData₃ hint ih =>
    have hrest := ih (by omega) h
    simp only [binData₃, binData₂, binData₁, List.length_append, List.length_singleton] at hrest
    omega

theorem lt_length_of_getD_ne {l : Bytes} {k : ℕ} (h : l.getD k 0 ≠ 0) : k < l.length := by
  by_contra hlong
  exact h (List.getD_eq_default _ _ (Nat.le_of_not_lt hlong))

/-- A `=` that ends a group is in the group or behind it. -/
theorem stopsInside_iff_next {base64 : Bytes} {i : ℕ} (hmod : i % 4 = 0)
    (hpad : base64.getD (i + 2) 0 ≠ base64Pad) (hpad' : base64.getD (i + 3) 0 ≠ base64Pad) :
    StopsInside base64 i ↔ StopsInside base64 (i + 4) := by
  refine or_congr Iff.rfl (exists_congr fun p => ?_)
  constructor
  · rintro ⟨hle, hint, hp, hthird⟩
    refine ⟨?_, hint, hp, hthird⟩
    -- neither of the two places in the group
    have hne (k : ℕ) (hk : base64.getD k 0 ≠ base64Pad) : p ≠ k := by
      rintro rfl
      exact hk (by rw [List.getD_eq_getElem?_getD, hp, Option.getD_some])
    have := hne _ hpad
    have := hne _ hpad'
    omega
  · rintro ⟨hle, hrest⟩
    exact ⟨by omega, hrest⟩

/-- **Decoder loop.** It reaches an end exactly where one lies ahead of it. -/
theorem decodeLoop_isSome_iff {base64 : Bytes} (hzero : 0 ∉ base64) {i : ℕ} (hmod : i % 4 = 0)
    (hi : i ≤ base64.length) (hint : i < 2 ^ 31) (binData : Bytes) :
    (decodeLoop base64 i binData).isSome ↔ StopsInside base64 i := by
  -- by the ways out of the loop
  fun_induction decodeLoop base64 i binData with
  | case1 => omega
  | case2 i binData hin hend =>
    -- the terminator
    have hlast : base64.length = i := by
      refine le_antisymm (Nat.le_of_not_lt fun hlt => hzero ?_) hi
      rw [List.getD_eq_getElem _ _ hlt] at hend
      exact hend ▸ List.getElem_mem hlt
    exact iff_of_true rfl (.inl ⟨by omega, by omega⟩)
  | case3 i binData hin hne hshort =>
    -- a group of one or two characters
    have hlt := lt_length_of_getD_ne hne
    refine iff_of_false (by simp) ?_
    rintro (⟨hmod', -⟩ | ⟨p, hle, -, hp, hthird⟩)
    · omega
    · obtain ⟨hplt, -⟩ := List.getElem?_eq_some_iff.mp hp
      omega
  | case4 i binData hin hne hgroup temp binData₁ hpad =>
    -- the third character is the padding
    refine iff_of_true rfl (.inr ⟨i + 2, by omega, by omega, ?_, by omega⟩)
    rw [List.getElem?_eq_getElem (by omega), ← hpad, List.getD_eq_getElem]
  | case5 i binData hin hne hgroup temp binData₁ hpad binData₂ hpad' =>
    -- the fourth one is
    have hlt : i + 3 < base64.length := lt_length_of_getD_ne (by rw [hpad']; decide)
    refine iff_of_true rfl (.inr ⟨i + 3, by omega, by omega, ?_, by omega⟩)
    rw [List.getElem?_eq_getElem hlt, ← hpad', List.getD_eq_getElem]
  | case6 i binData hin hne hgroup temp binData₁ hpad binData₂ hpad' binData₃ hnext ih =>
    -- a whole group: an end ahead of it lies ahead of the next
    rw [stopsInside_iff_next hmod hpad hpad']
    by_cases hlong : i + 4 ≤ base64.length
    · exact ih (by omega) hlong (by have := hnext.2; omega)
    · -- the terminator is the last character of the group
      rw [decodeLoop_outside (by omega)]
      refine iff_of_false (by simp) ?_
      rintro (⟨hmod', -⟩ | ⟨p, hle, -, hp, -⟩)
      · omega
      · obtain ⟨hplt, -⟩ := List.getElem?_eq_some_iff.mp hp
        omega
  | case7 i binData hin hne hgroup hpad hpad' hnext =>
    -- `i` overflows
    have hover : 2 ^ 31 ≤ i + 4 := by
      by_contra hlt
      exact hnext ⟨by omega, by omega⟩
    rw [stopsInside_iff_next hmod hpad hpad']
    refine iff_of_false (by simp) ?_
    rintro (⟨hmod', hlt⟩ | ⟨p, hle, hlt, -⟩) <;> omega

/-- `bio_base64_decode` stays inside the string: it comes to an end, and has written at most three
bytes for every four characters begun. -/
def DecodesInside (base64 : Bytes) : Prop :=
  ∃ n data, bioBase64DecodeLoop base64 = some (n, data) ∧
    data.length ≤ 3 * ((base64.length + 3) / 4)

/-- The decoder stays inside exactly the strings of whole groups, and those in which a `=` at the
third or fourth place of a group ends it. -/
theorem decodesInside_iff (base64 : Bytes) (hzero : 0 ∉ base64) :
    DecodesInside base64 ↔
      base64.length % 4 = 0 ∧ base64.length < 2 ^ 31 ∨
        ∃ p, p < 2 ^ 31 ∧ base64[p]? = some base64Pad ∧ 2 ≤ p % 4 := by
  have hsome := decodeLoop_isSome_iff hzero (i := 0) rfl (Nat.zero_le _) (by norm_num) []
  simp only [StopsInside, Nat.zero_le, true_and] at hsome
  rw [← hsome, Option.isSome_iff_exists]
  constructor
  · rintro ⟨n, data, hrun, -⟩
    rw [bioBase64DecodeLoop, Option.map_eq_some_iff] at hrun
    obtain ⟨binData, hloop, -⟩ := hrun
    exact ⟨binData, hloop⟩
  · rintro ⟨data, hloop⟩
    refine ⟨data.length, data, by rw [bioBase64DecodeLoop, hloop, Option.map_some], ?_⟩
    simpa using decodeLoop_length rfl hloop

/-- `decodesInside_iff` of a group with two `=`. -/
theorem decodesInside_group : DecodesInside [81, 81, 61, 61] :=
  (decodesInside_iff [81, 81, 61, 61] (by decide)).mpr (.inl ⟨by decide, by norm_num⟩)

/-- The string `A` is read past its terminator. -/
theorem not_decodesInside_short : ¬ ∀ base64 : Bytes, 0 ∉ base64 → DecodesInside base64 := by
  intro h
  obtain ⟨n, data, hrun, -⟩ := h [65] (by decide)
  rw [bioBase64DecodeLoop, decodeLoop_short (by decide) (by decide) (by decide)] at hrun
  cases hrun

end BiometricAuth
