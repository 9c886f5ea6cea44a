import Mathlib

/-!
# Cipher feedback mode

Cipher feedback turns a function `E` on blocks of `n` symbols into a cipher on
lists of any length: every block of the text is added to `E` of the block of
ciphertext before it, and what is left over at the end is treated as a block
padded with `zero`. `E` is only ever applied forwards, so nothing is asked of
it; the symbols need an operation that undoes itself.

`encrypt` and `decrypt` go round by round, as implementations do: the number of
rounds is worked out from the length first. `decrypt_encrypt` and
`encrypt_decrypt` are the round trips, `length_encrypt` says that the length is
kept, and `getElem?_encrypt` which block each symbol is enciphered with.
-/

namespace FeedbackMode

variable {β : Type*} {n : ℕ} (zero : β) (op : β → β → β) (E : Vector β n → Vector β n)

/-- The first `n` symbols of a list as a block, padded with `zero`. -/
def loadBlock (l : List β) : Vector β n := Vector.ofFn fun i : Fin n => l.getD i zero

/-- Two blocks added symbol by symbol. -/
def addBlock (a b : Vector β n) : Vector β n := Vector.zipWith op a b

/-- The number of rounds for a text of the given length. -/
def rounds (n len : ℕ) : ℕ := if len % n = 0 then len / n else len / n + 1

/-- `k` rounds of encryption; `prev` is the block of ciphertext before. -/
def encryptRounds : ℕ → Vector β n → List β → List β
  | 0, _, _ => []
  | k + 1, prev, data =>
    let cipherText := addBlock op (loadBlock zero data) (E prev)
    cipherText.toList.take data.length ++ encryptRounds k cipherText (data.drop n)

/-- `k` rounds of decryption. -/
def decryptRounds : ℕ → Vector β n → List β → List β
  | 0, _, _ => []
  | k + 1, prev, data =>
    let cipherText := loadBlock zero data
    (addBlock op cipherText (E prev)).toList.take data.length ++
      decryptRounds k cipherText (data.drop n)

/-- Encryption under the initial block `iv`. -/
def encrypt (iv : Vector β n) (data : List β) : List β :=
  encryptRounds zero op E (rounds n data.length) iv data

/-- Decryption under the initial block `iv`. -/
def decrypt (iv : Vector β n) (data : List β) : List β :=
  decryptRounds zero op E (rounds n data.length) iv data

/-! ### Blocks -/

@[simp] theorem getElem_loadBlock (l : List β) (i : ℕ) (hi : i < n) :
    (loadBlock zero l : Vector β n)[i] = l.getD i zero := by
  simp [loadBlock]

@[simp] theorem getElem_addBlock (a b : Vector β n) (i : ℕ) (hi : i < n) :
    (addBlock op a b)[i] = op a[i] b[i] := by
  simp [addBlock]

/-- A block has the first `n` symbols of a list. -/
theorem loadBlock_take {l : List β} {m : ℕ} (hm : min n l.length ≤ m) :
    (loadBlock zero (l.take m) : Vector β n) = loadBlock zero l := by
  ext i hi
  rw [getElem_loadBlock, getElem_loadBlock]
  by_cases hlength : i < l.length
  · simp [show i < m by omega]
  · have hpast : l.length ≤ i := Nat.le_of_not_lt hlength
    rw [List.getD_eq_default _ _ hpast,
      List.getD_eq_default _ _ ((List.length_take_le' _ _).trans hpast)]

/-- A block is loaded back from its symbols. -/
theorem loadBlock_toList_append (a : Vector β n) (l : List β) :
    loadBlock zero (a.toList ++ l) = a := by
  ext i hi
  simp [List.getElem?_append, hi]

/-- Adding the block a text was encrypted with brings its first `n` symbols back,
whether or not there are that many. -/
theorem addBlock_loadBlock (hop : ∀ a b, op (op a b) b = a) (data rest : List β)
    (key : Vector β n) :
    (addBlock op (loadBlock zero
      ((addBlock op (loadBlock zero data) key).toList.take data.length ++ rest)) key).toList.take
        data.length = data.take n := by
  refine List.ext_getElem (by simp [Nat.min_comm]) fun i h₁ h₂ => ?_
  simp only [List.length_take, lt_min_iff] at h₂
  simp [List.getElem?_append, h₂.1, h₂.2, hop]

/-! ### Rounds -/

theorem rounds_succ (hn : 0 < n) {len k : ℕ} (h : rounds n len = k + 1) :
    rounds n (len - n) = k ∧ 0 < len ∧ (len < n → k = 0) := by
  unfold rounds at h ⊢
  have hdiv := Nat.div_add_mod len n
  rcases Nat.lt_or_ge len n with hlt | hge
  · rw [Nat.mod_eq_of_lt hlt, Nat.div_eq_of_lt hlt] at h
    rw [Nat.sub_eq_zero_of_le hlt.le]
    split at h
    · omega
    · exact ⟨by simp; omega, by omega, fun _ => by omega⟩
  · have hsub : (len - n) % n = len % n ∧ (len - n) / n + 1 = len / n := by
      obtain ⟨m, rfl⟩ := Nat.exists_eq_add_of_le hge
      rw [Nat.add_sub_cancel_left, Nat.add_mod_left, Nat.add_div_left _ hn]
      exact ⟨rfl, rfl⟩
    rw [hsub.1]
    refine ⟨?_, by omega, fun h' => by omega⟩
    split at h
    · next hz => rw [if_pos hz]; omega
    · next hz => rw [if_neg hz]; omega

/-- There is nothing to do for the empty text only. -/
theorem eq_zero_of_rounds {len : ℕ} (h : rounds n len = 0) : len = 0 := by
  unfold rounds at h
  split at h
  · next hz =>
    have hdiv := Nat.div_add_mod len n
    rw [h, hz] at hdiv
    simpa using hdiv.symm
  · exact absurd h (Nat.succ_ne_zero _)

theorem length_encryptRounds (hn : 0 < n) {k : ℕ} (prev : Vector β n) {data : List β}
    (hk : rounds n data.length = k) :
    (encryptRounds zero op E k prev data).length = data.length := by
  induction k generalizing prev data with
  | zero => rw [encryptRounds, List.length_nil, eq_zero_of_rounds hk]
  | succ k ih =>
    have hrest := (rounds_succ hn hk).1
    rw [encryptRounds, List.length_append, ih _ (by rwa [List.length_drop]), List.length_take,
      Vector.length_toList, List.length_drop]
    omega

theorem length_decryptRounds (hn : 0 < n) {k : ℕ} (prev : Vector β n) {data : List β}
    (hk : rounds n data.length = k) :
    (decryptRounds zero op E k prev data).length = data.length := by
  induction k generalizing prev data with
  | zero => rw [decryptRounds, List.length_nil, eq_zero_of_rounds hk]
  | succ k ih =>
    have hrest := (rounds_succ hn hk).1
    rw [decryptRounds, List.length_append, ih _ (by rwa [List.length_drop]), List.length_take,
      Vector.length_toList, List.length_drop]
    omega

/-- **Round lemma.** Decryption undoes encryption round by round. -/
theorem decryptRounds_encryptRounds (hop : ∀ a b, op (op a b) b = a) (hn : 0 < n) {k : ℕ}
    {prev : Vector β n} {data : List β} (hk : rounds n data.length = k) :
    decryptRounds zero op E k prev (encryptRounds zero op E k prev data) = data := by
  induction k generalizing prev data with
  | zero =>
    have hlen := length_encryptRounds zero op E hn prev hk
    simp only [encryptRounds, List.length_nil] at hlen
    rw [List.length_eq_zero_iff.mp hlen.symm]
    rfl
  | succ k ih =>
    have hlen := length_encryptRounds zero op E hn prev hk
    obtain ⟨hrest, -, hlast⟩ := rounds_succ hn hk
    have hrest' : rounds n (data.drop n).length = k := by rwa [List.length_drop]
    rw [decryptRounds, hlen, encryptRounds, addBlock_loadBlock zero op hop]
    rcases Nat.lt_or_ge data.length n with hlt | hge
    · -- the last, incomplete block
      obtain rfl := hlast hlt
      simp [decryptRounds, List.take_of_length_le hlt.le]
    · rw [List.take_of_length_le (l := (addBlock op _ _).toList) (by simpa using hge),
        loadBlock_toList_append, List.drop_left' (by simp), ih hrest', List.take_append_drop]

/-- **Round lemma.** Encryption undoes decryption round by round: both feed back the same blocks. -/
theorem encryptRounds_decryptRounds (hop : ∀ a b, op (op a b) b = a) (hn : 0 < n) {k : ℕ}
    {prev : Vector β n} {data : List β} (hk : rounds n data.length = k) :
    encryptRounds zero op E k prev (decryptRounds zero op E k prev data) = data := by
  induction k generalizing prev data with
  | zero => rw [encryptRounds, List.eq_nil_of_length_eq_zero (eq_zero_of_rounds hk)]
  | succ k ih =>
    have hlen := length_decryptRounds zero op E hn prev hk
    obtain ⟨hrest, -, hlast⟩ := rounds_succ hn hk
    have hrest' : rounds n (data.drop n).length = k := by rwa [List.length_drop]
    rw [encryptRounds, hlen, decryptRounds, addBlock_loadBlock zero op hop]
    rcases Nat.lt_or_ge data.length n with hlt | hge
    · -- the last, incomplete block
      obtain rfl := hlast hlt
      simp [encryptRounds, List.take_of_length_le hlt.le]
    · have hfeedback : addBlock op (addBlock op (loadBlock zero data) (E prev)) (E prev) =
          loadBlock zero data := by
        ext i hi
        rw [getElem_addBlock, getElem_addBlock, hop]
      rw [List.take_of_length_le (l := (addBlock op _ _).toList) (by simpa using hge),
        loadBlock_toList_append, hfeedback, List.drop_left' (by simp), ih hrest',
        List.take_append_drop]

theorem length_encrypt (hn : 0 < n) (iv : Vector β n) (data : List β) :
    (encrypt zero op E iv data).length = data.length :=
  length_encryptRounds zero op E hn _ rfl

theorem length_decrypt (hn : 0 < n) (iv : Vector β n) (data : List β) :
    (decrypt zero op E iv data).length = data.length :=
  length_decryptRounds zero op E hn _ rfl

/-! ### Symbols -/

/-- The block that is enciphered for the symbol at index `i`: the initial block, and from the
second block on the block of ciphertext before. -/
def feedbackBlock (iv : Vector β n) (out : List β) (i : ℕ) : Vector β n :=
  if i < n then iv else loadBlock zero (out.drop ((i / n - 1) * n))

theorem feedbackBlock_append (hn : 0 < n) (iv a : Vector β n) (out : List β) (i : ℕ) :
    feedbackBlock zero iv (a.toList ++ out) (n + i) = feedbackBlock zero a out i := by
  rw [feedbackBlock, if_neg (by omega), Nat.add_div_left _ hn, Nat.add_sub_cancel, feedbackBlock]
  by_cases hi : i < n
  · -- the first block of what was written
    rw [if_pos hi, Nat.div_eq_of_lt hi, Nat.zero_mul, List.drop_zero, loadBlock_toList_append]
  · have hblock : i / n * n = n + (i / n - 1) * n := by
      obtain ⟨q, hq⟩ := Nat.exists_eq_add_of_le' (Nat.div_pos (Nat.le_of_not_lt hi) hn)
      rw [hq, Nat.add_sub_cancel, Nat.add_mul, Nat.one_mul, Nat.add_comm]
    have hlength : a.toList.length = n := a.length_toList
    rw [if_neg hi, hblock, ← List.drop_drop, List.drop_left' hlength]

/-- **Symbol lemma.** Every symbol of the text is added to its place in the block enciphered for
it. -/
theorem getElem?_encryptRounds (hn : 0 < n) {k : ℕ} {prev : Vector β n} {data : List β}
    (hk : rounds n data.length = k) (i : ℕ) (hi : i < data.length) :
    (encryptRounds zero op E k prev data)[i]? = some (op data[i]
      ((E (feedbackBlock zero prev (encryptRounds zero op E k prev data) i)).get
        ⟨i % n, Nat.mod_lt i hn⟩)) := by
  induction k generalizing prev data i with
  | zero =>
    have hlength := eq_zero_of_rounds hk
    omega
  | succ k ih =>
    have hrest := (rounds_succ hn hk).1
    rw [encryptRounds]
    by_cases hfirst : i < n
    · -- the block of this round
      rw [feedbackBlock, if_pos hfirst, List.getElem?_append_left (by simp; omega),
        List.getElem?_take_of_lt hi]
      simp [hi, hfirst, Nat.mod_eq_of_lt hfirst, Vector.get_eq_getElem]
    · -- the blocks of the rounds after; this one is complete
      obtain ⟨j, rfl⟩ := Nat.exists_eq_add_of_le (Nat.le_of_not_lt hfirst)
      have hfull : (addBlock op (loadBlock zero data) (E prev)).toList.take data.length =
          (addBlock op (loadBlock zero data) (E prev)).toList :=
        List.take_of_length_le (by rw [Vector.length_toList]; omega)
      rw [hfull, feedbackBlock_append zero hn, List.getElem?_append_right (by simp),
        Vector.length_toList, Nat.add_sub_cancel_left,
        ih (by rwa [List.length_drop]) j (by rw [List.length_drop]; omega)]
      simp

/-- Encryption, symbol by symbol. -/
theorem getElem?_encrypt (hn : 0 < n) (iv : Vector β n) (data : List β) (i : ℕ)
    (hi : i < data.length) :
    (encrypt zero op E iv data)[i]? = some (op data[i]
      ((E (feedbackBlock zero iv (encrypt zero op E iv data) i)).get ⟨i % n, Nat.mod_lt i hn⟩)) :=
  getElem?_encryptRounds zero op E hn rfl i hi

/-- **Round trip.** -/
theorem decrypt_encrypt (hop : ∀ a b, op (op a b) b = a) (hn : 0 < n) (iv : Vector β n)
    (data : List β) : decrypt zero op E iv (encrypt zero op E iv data) = data := by
  rw [decrypt, length_encrypt zero op E hn]
  exact decryptRounds_encryptRounds zero op E hop hn rfl

/-- **Round trip**, the other way. -/
theorem encrypt_decrypt (hop : ∀ a b, op (op a b) b = a) (hn : 0 < n) (iv : Vector β n)
    (data : List β) : encrypt zero op E iv (decrypt zero op E iv data) = data := by
  rw [encrypt, length_decrypt zero op E hn]
  exact encryptRounds_decryptRounds zero op E hop hn rfl

end FeedbackMode
