import BiometricAuth.Common.CInt
import BiometricAuth.Storage.Table

/-!
# Walking through UTF-8

`internal_utf8_str_len` and `internal_utf8_str_width` of `biometric_storage.c`. Both jump from lead
byte to lead byte, by a length that they read off three bits of it, and stop at a NUL. They see the
bytes from their argument on, to the end of what can be read; `none` is a cursor behind that end,
or an overflow of the `int` they count in.

A lead byte is a `char`, signed or not: its lower eight bits are the same.

Main result: `walksExactly_iff` — on the encoding of a text both count right, and stop at its end,
exactly if the width is a number of an `int`.
-/

namespace BiometricAuth

/-! ### The functions -/

/-- `kFirstBitMask`, `kThirdBitMask` and `kFourthBitMask`. The second bit is not looked at. -/
def kFirstBitMask : UInt8 := 128
def kThirdBitMask : UInt8 := 32
def kFourthBitMask : UInt8 := 16

/-- `internal_utf8_char_len`. -/
def internalUtf8CharLen (firstByte : UInt8) : ℕ :=
  if firstByte &&& kFirstBitMask ≠ 0 then
    if firstByte &&& kThirdBitMask ≠ 0 then
      if firstByte &&& kFourthBitMask ≠ 0 then 4 else 3
    else 2
  else 1

/-- The loop of the two functions, from a count and a cursor on: what it counts, and where the
cursor stops. A character counts twice if `isWide` says so of its length. `p += l` is a jump: of
the character at the cursor `skip` bytes are left to be passed over. -/
def utf8Walk (isWide : ℕ → Bool) : Bytes → ℕ → ℤ → ℕ → Option (ℤ × ℕ)
  | [], _, _, _ => none
  | _ :: rest, skip + 1, len, p => utf8Walk isWide rest skip len p
  | b :: rest, 0, len, p =>
    if b = 0 then some (len, p)
    else do
      let len ← cInt (len + 1)
      let l := internalUtf8CharLen b
      let len ← if isWide l then cInt (len + 1) else some len
      utf8Walk isWide rest (l - 1) len (p + l)

/-- `internal_utf8_str_len`. -/
def internalUtf8StrLen (str : Bytes) : Option (ℤ × ℕ) := utf8Walk (fun _ => false) str 0 0 0

/-- `internal_utf8_str_width`. -/
def internalUtf8StrWidth (str : Bytes) : Option (ℤ × ℕ) := utf8Walk (fun l => 2 < l) str 0 0 0

/-- The bytes to be passed over are not looked at. -/
theorem utf8Walk_skip (isWide : ℕ → Bool) (bytes : Bytes) (skip : ℕ) (len : ℤ) (p : ℕ) :
    utf8Walk isWide bytes skip len p = utf8Walk isWide (bytes.drop skip) 0 len p := by
  induction bytes generalizing skip with
  | nil => cases skip <;> rfl
  | cons b rest ih =>
    cases skip with
    | zero => rfl
    | succ skip => exact ih skip

/-! ### Texts -/

/-- The bytes of a text. -/
def encodeUtf8 (text : List Char) : Bytes := text.flatMap String.utf8EncodeChar

/-- A character that is displayed in two columns. -/
def IsWideChar (c : Char) : Prop := 0x800 ≤ c.toNat

instance decidableIsWideChar (c : Char) : Decidable (IsWideChar c) :=
  inferInstanceAs (Decidable (_ ≤ _))

/-- The columns of a text. -/
def textWidth (text : List Char) : ℕ := text.length + text.countP fun c => IsWideChar c

/-- Whatever is behind the terminator of the text, the functions count its characters and its
columns, and the cursor stops at the terminator. There are no more columns than bytes. -/
structure WalksExactly (text : List Char) : Prop where
  len : ∀ rest, internalUtf8StrLen (encodeUtf8 text ++ 0 :: rest) =
    some ((text.length : ℤ), (encodeUtf8 text).length)
  width : ∀ rest, internalUtf8StrWidth (encodeUtf8 text ++ 0 :: rest) =
    some ((textWidth text : ℤ), (encodeUtf8 text).length)
  bytes : textWidth text ≤ (encodeUtf8 text).length

/-! ### One character -/

/-- The bits that are looked at, as a number. -/
theorem internalUtf8CharLen_eq (b : UInt8) : internalUtf8CharLen b =
    if b.toNat < 128 then 1 else if b.toNat / 32 % 2 = 0 then 2
      else if b.toNat / 16 % 2 = 0 then 3 else 4 := by
  have hall : ∀ i : Fin 256, internalUtf8CharLen (UInt8.ofFin i) =
      if i.val < 128 then 1 else if i.val / 32 % 2 = 0 then 2
        else if i.val / 16 % 2 = 0 then 3 else 4 := by decide +kernel
  exact hall b.toFin

/-- `b` and `tail` are the encoding of `c`, and `b` says how long that is. -/
structure IsLeadByte (c : Char) (b : UInt8) (tail : Bytes) : Prop where
  encode : String.utf8EncodeChar c = b :: tail
  ne_zero : b ≠ 0
  charLen : internalUtf8CharLen b = tail.length + 1
  wide : 2 < tail.length + 1 ↔ IsWideChar c

/-- A lead byte is given by a number, and it is looked at as one. -/
theorem isLeadByte_of_ofNat {c : Char} {n k : ℕ} {tail : Bytes}
    (hencode : String.utf8EncodeChar c = UInt8.ofNat n :: tail) (htail : tail.length + 1 = k)
    (hpos : 0 < n) (hn : n < 256)
    (hlen : (if n < 128 then 1 else if n / 32 % 2 = 0 then 2
      else if n / 16 % 2 = 0 then 3 else 4) = k)
    (hwide : 2 < k ↔ 0x800 ≤ c.val.toNat) : IsLeadByte c (UInt8.ofNat n) tail := by
  have htoNat : (UInt8.ofNat n).toNat = n := UInt8.toNat_ofNat_of_lt' hn
  refine ⟨hencode, ?_, ?_, by rw [htail]; exact hwide⟩
  · intro hzero
    rw [hzero] at htoNat
    exact absurd htoNat hpos.ne
  · rw [internalUtf8CharLen_eq, htoNat, hlen, htail]

/-- Every character but NUL has a lead byte: one case for each length of an encoding. The bits of
the lead byte above the payload are fixed by the length, so that only they matter. -/
theorem exists_isLeadByte {c : Char} (hc : c ≠ '\x00') : ∃ b tail, IsLeadByte c b tail := by
  have hpos : c.val.toNat ≠ 0 := fun h => hc (Char.toNat_inj.mp h)
  by_cases hone : c.val.toNat ≤ 0x7f
  · have hencode : String.utf8EncodeChar c = [UInt8.ofNat c.val.toNat] := if_pos hone
    exact ⟨_, _, isLeadByte_of_ofNat (k := 1) hencode rfl (by omega) (by omega)
      (by split_ifs <;> omega) (by omega)⟩
  by_cases htwo : c.val.toNat ≤ 0x7ff
  · have hencode : String.utf8EncodeChar c = _ := (if_neg hone).trans (if_pos htwo)
    exact ⟨_, _, isLeadByte_of_ofNat (k := 2) hencode rfl (by omega) (by omega)
      (by split_ifs <;> omega) (by omega)⟩
  by_cases hthree : c.val.toNat ≤ 0xffff
  · have hencode : String.utf8EncodeChar c = _ :=
      (if_neg hone).trans ((if_neg htwo).trans (if_pos hthree))
    exact ⟨_, _, isLeadByte_of_ofNat (k := 3) hencode rfl (by omega) (by omega)
      (by split_ifs <;> omega) (by omega)⟩
  · have hencode : String.utf8EncodeChar c = _ :=
      (if_neg hone).trans ((if_neg htwo).trans (if_neg hthree))
    exact ⟨_, _, isLeadByte_of_ofNat (k := 4) hencode rfl (by omega) (by omega)
      (by split_ifs <;> omega) (by omega)⟩

/-! ### A text -/

@[simp] theorem encodeUtf8_cons (c : Char) (text : List Char) :
    encodeUtf8 (c :: text) = String.utf8EncodeChar c ++ encodeUtf8 text := rfl

/-- What a walk counts for a character. -/
def columns (isWide : ℕ → Bool) (c : Char) : ℕ :=
  if isWide (String.utf8EncodeChar c).length then 2 else 1

/-- The two additions of a round are one addition. -/
theorem cInt_bind_cInt {len : ℤ} (hlen : 0 ≤ len) :
    (cInt (len + 1)).bind (fun x => cInt (x + 1)) = cInt (len + 2) := by
  by_cases hint : IsCInt (len + 1)
  · rw [cInt_eq_some hint]
    show cInt (len + 1 + 1) = cInt (len + 2)
    rw [add_assoc]
    rfl
  · have hover : 2 ^ 31 ≤ len + 1 := by
      unfold IsCInt at hint
      omega
    rw [cInt_eq_none hover, cInt_eq_none (by omega)]
    rfl

/-- One character: the walk goes on behind it. -/
theorem utf8Walk_encodeChar (isWide : ℕ → Bool) {c : Char} (hc : c ≠ '\x00') (rest : Bytes)
    {len : ℤ} (p : ℕ) (hlen : 0 ≤ len) :
    utf8Walk isWide (String.utf8EncodeChar c ++ rest) 0 len p =
      (cInt (len + columns isWide c)).bind fun len =>
        utf8Walk isWide rest 0 len (p + (String.utf8EncodeChar c).length) := by
  obtain ⟨b, tail, hlead⟩ := exists_isLeadByte hc
  have hdrop : (tail ++ rest).drop (internalUtf8CharLen b - 1) = rest := by
    rw [hlead.charLen, Nat.add_sub_cancel, List.drop_left]
  have hlength : (b :: tail).length = internalUtf8CharLen b := hlead.charLen.symm
  rw [columns, hlead.encode, List.cons_append, utf8Walk, if_neg hlead.ne_zero, hlength]
  simp only [utf8Walk_skip _ _ (_ - 1), hdrop, Option.bind_eq_bind]
  cases hwide : isWide (internalUtf8CharLen b) with
  | false => simp
  | true =>
    simp only [if_true, Nat.cast_ofNat, ← cInt_bind_cInt hlen, Option.bind_assoc]

/-- The whole text: induction on its characters. -/
theorem utf8Walk_encodeUtf8 (isWide : ℕ → Bool) (rest : Bytes) (text : List Char) {len : ℤ} (p : ℕ)
    (hlen : IsCInt len) (hpos : 0 ≤ len) (htext : ∀ c ∈ text, c ≠ '\x00') :
    utf8Walk isWide (encodeUtf8 text ++ 0 :: rest) 0 len p =
      (cInt (len + (text.map (columns isWide)).sum)).map
        (·, p + (encodeUtf8 text).length) := by
  induction text generalizing len p with
  | nil =>
    rw [encodeUtf8, List.flatMap_nil, List.nil_append, utf8Walk, if_pos rfl]
    simp [cInt_eq_some hlen]
  | cons c text ih =>
    rw [encodeUtf8_cons, List.append_assoc,
      utf8Walk_encodeChar isWide (htext c List.mem_cons_self) _ p hpos]
    have hsum : ((c :: text).map (columns isWide)).sum =
        columns isWide c + (text.map (columns isWide)).sum := by
      rw [List.map_cons, List.sum_cons]
    by_cases hint : IsCInt (len + columns isWide c)
    · have hrest := ih (p + (String.utf8EncodeChar c).length) hint (by omega)
        fun d hd => htext d (List.mem_cons_of_mem c hd)
      rw [cInt_eq_some hint, Option.bind_some, hrest, hsum, List.length_append, Nat.cast_add,
        add_assoc, add_assoc]
    · -- The counter only grows, so what has left its range stays out of it.
      have hover : 2 ^ 31 ≤ len + columns isWide c := by
        unfold IsCInt at hint hlen
        omega
      rw [cInt_eq_none hover, cInt_eq_none (by rw [hsum, Nat.cast_add]; omega)]
      rfl

/-! ### Characters, columns and bytes -/

theorem sum_columns_strLen (text : List Char) :
    (text.map (columns fun _ => false)).sum = text.length := by
  have hone : columns (fun _ => false) = fun _ => 1 := rfl
  rw [hone, List.map_const', List.sum_replicate, smul_eq_mul, mul_one]

/-- A character is as wide as its encoding is long, up to two columns. -/
theorem columns_strWidth {c : Char} (hc : c ≠ '\x00') :
    columns (fun l => 2 < l) c = if IsWideChar c then 2 else 1 := by
  obtain ⟨b, tail, hlead⟩ := exists_isLeadByte hc
  unfold columns
  simp only [hlead.encode, List.length_cons, decide_eq_true_eq, hlead.wide]

theorem sum_columns_strWidth {text : List Char} (htext : ∀ c ∈ text, c ≠ '\x00') :
    (text.map (columns fun l => 2 < l)).sum = textWidth text := by
  induction text with
  | nil => rfl
  | cons c text ih =>
    obtain ⟨hc, htail⟩ := List.forall_mem_cons.mp htext
    rw [List.map_cons, List.sum_cons, ih htail, columns_strWidth hc]
    unfold textWidth
    rw [List.length_cons, List.countP_cons]
    by_cases hwide : IsWideChar c
    · simp only [hwide, if_true, decide_true]
      omega
    · simp only [hwide, if_false, decide_false, Bool.false_eq_true]
      omega

theorem textWidth_le_length {text : List Char} (htext : ∀ c ∈ text, c ≠ '\x00') :
    textWidth text ≤ (encodeUtf8 text).length := by
  have hle : ∀ c, columns (fun l => 2 < l) c ≤ (String.utf8EncodeChar c).length := by
    intro c
    have hpos : 0 < (String.utf8EncodeChar c).length := by
      rw [String.length_utf8EncodeChar]
      exact c.utf8Size_pos
    unfold columns
    split
    · next hwide => exact (of_decide_eq_true hwide).le
    · exact hpos
  calc textWidth text = (text.map (columns fun l => 2 < l)).sum :=
        (sum_columns_strWidth htext).symm
    _ ≤ (text.map fun c => (String.utf8EncodeChar c).length).sum :=
        List.sum_le_sum fun c _ => hle c
    _ = (encodeUtf8 text).length := List.length_flatMap.symm

/-! ### Exactness -/

theorem internalUtf8StrLen_encodeUtf8 {text : List Char} (htext : ∀ c ∈ text, c ≠ '\x00')
    (rest : Bytes) : internalUtf8StrLen (encodeUtf8 text ++ 0 :: rest) =
      (cInt text.length).map (·, (encodeUtf8 text).length) := by
  rw [internalUtf8StrLen, utf8Walk_encodeUtf8 _ rest text 0 (by decide) le_rfl htext,
    sum_columns_strLen, zero_add, zero_add]

theorem internalUtf8StrWidth_encodeUtf8 {text : List Char} (htext : ∀ c ∈ text, c ≠ '\x00')
    (rest : Bytes) : internalUtf8StrWidth (encodeUtf8 text ++ 0 :: rest) =
      (cInt (textWidth text)).map (·, (encodeUtf8 text).length) := by
  rw [internalUtf8StrWidth, utf8Walk_encodeUtf8 _ rest text 0 (by decide) le_rfl htext,
    sum_columns_strWidth htext, zero_add, zero_add]

/-- The two walks are exact on the texts whose columns an `int` can count. -/
theorem walksExactly_iff (text : List Char) (htext : ∀ c ∈ text, c ≠ '\x00') :
    WalksExactly text ↔ textWidth text < 2 ^ 31 := by
  constructor
  · intro hwalks
    by_contra hover
    have hnone : cInt (textWidth text : ℤ) = none := cInt_eq_none (by omega)
    have hwidth := hwalks.width []
    rw [internalUtf8StrWidth_encodeUtf8 htext, hnone] at hwidth
    cases hwidth
  · intro hwidth
    have hlen : text.length ≤ textWidth text := Nat.le_add_right _ _
    refine ⟨fun rest => ?_, fun rest => ?_, textWidth_le_length htext⟩
    · rw [internalUtf8StrLen_encodeUtf8 htext, cInt_eq_some ⟨by omega, by omega⟩]
      rfl
    · rw [internalUtf8StrWidth_encodeUtf8 htext, cInt_eq_some ⟨by omega, by omega⟩]
      rfl

/-- One character of each length. -/
theorem walksExactly_lengths : WalksExactly ['a', 'é', '€', '😀'] :=
  (walksExactly_iff _ (by simp)).mpr (by decide)

/-- The walk over letters, one column each. -/
theorem internalUtf8StrLen_letters (n : ℕ) (rest : Bytes) :
    internalUtf8StrLen (encodeUtf8 (List.replicate n 'a') ++ 0 :: rest) =
      (cInt n).map (·, (encodeUtf8 (List.replicate n 'a')).length) := by
  have hletters : ∀ c ∈ List.replicate n 'a', c ≠ '\x00' := by
    intro c hc
    rw [List.eq_of_mem_replicate hc]
    decide
  rw [internalUtf8StrLen_encodeUtf8 hletters, List.length_replicate]

/-- A text of `2 ^ 31` letters has no walk: its length is no `int`. -/
theorem not_walksExactly : ¬ ∀ text : List Char, (∀ c ∈ text, c ≠ '\x00') → WalksExactly text := by
  intro hall
  have hwalks : WalksExactly (List.replicate (2 ^ 31) 'a') := by
    refine hall _ fun c hc => ?_
    rw [List.eq_of_mem_replicate hc]
    decide
  have hlen := hwalks.len []
  rw [internalUtf8StrLen_letters, cInt_eq_none (by decide)] at hlen
  cases hlen

end BiometricAuth
