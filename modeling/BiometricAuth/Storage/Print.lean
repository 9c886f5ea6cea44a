import BiometricAuth.Storage.Reader
import BiometricAuth.Storage.Utf8

/-!
# Printing features

`print_feature_info` of `biometric_storage.c`: one line for each sample of a list of features, in
four columns that are formatted into buffers of `SL` bytes. A column is formatted when its field
differs from the line before, and blank otherwise: blanks up to the width it had.

A text that does not fit into its buffer, a terminator outside of it and a feature without samples
are `none`. What the buffers hold at the start is left open.

Main result: `printsInside_iff` — the buffers hold out exactly if every driver and every name that
are formatted are short enough.
-/

namespace BiometricAuth

/-! ### The function -/

/-- The size of the buffers. -/
def SL : ℕ := 1024

/-- `%0wd`: zeros up to a width of `w`, of which the sign is a part. -/
def formatInt (w : ℕ) (x : ℤ) : List Char :=
  let sign := if x < 0 then ['-'] else []
  let digits := Nat.toDigits 10 x.natAbs
  sign ++ (List.replicate (w - sign.length - digits.length) '0' ++ digits)

/-- A buffer and the width of what was last formatted into it, as `ustr` and `ustr_l`. -/
structure PrintColumn where
  str : Bytes
  strL : ℤ

namespace PrintColumn

/-- `sprintf` of a text, and its width. -/
def format (col : PrintColumn) (text : List Char) : Option PrintColumn :=
  if (encodeUtf8 text).length < SL then do
    let str := encodeUtf8 text ++ 0 :: col.str.drop ((encodeUtf8 text).length + 1)
    let (strL, _) ← internalUtf8StrWidth str
    some { str, strL }
  else none

/-- `memset` to blanks, and a terminator behind the width of before. -/
def blank (col : PrintColumn) : Option PrintColumn :=
  if 0 ≤ col.strL ∧ col.strL < SL then
    some { col with str := (List.replicate SL 32).set col.strL.toNat 0 }
  else none

/-- A column of a line. -/
def print (col : PrintColumn) (changed : Bool) (text : List Char) : Option PrintColumn :=
  if changed then col.format text else col.blank

/-- The buffer as a C string. -/
def text (col : PrintColumn) : Bytes := col.str.takeWhile (· ≠ 0)

end PrintColumn

/-- The local variables: the fields of the line before, and the columns. -/
structure PrintState where
  olduid : ℤ
  oldbiotype : ℤ
  olddriver : Option String
  oldidx : ℤ
  ustr : PrintColumn
  bstr : PrintColumn
  dstr : PrintColumn
  istr : PrintColumn

/-- The local variables at the start. The buffers are uninitialised. -/
def PrintState.init (ustr bstr dstr istr : Bytes) : PrintState where
  olduid := -1
  oldbiotype := -1
  olddriver := none
  oldidx := -1
  ustr := { str := ustr, strL := 0 }
  bstr := { str := bstr, strL := 0 }
  dstr := { str := dstr, strL := 0 }
  istr := { str := istr, strL := 0 }

/-- A change of the user resets the three other fields. -/
def printUid (info : FeatureInfo) (s : PrintState) : Option PrintState := do
  let changed := s.olduid ≠ info.uid
  let ustr ← s.ustr.print changed (['U', ':'] ++ formatInt 4 info.uid ++ [','])
  some <| if changed then
      { s with olduid := info.uid, oldbiotype := -1, olddriver := none, oldidx := -1, ustr }
    else { s with ustr }

/-- A change of the type resets the two fields behind it. -/
def printBiotype (info : FeatureInfo) (s : PrintState) : Option PrintState := do
  let changed := s.oldbiotype ≠ info.biotype
  let bstr ← s.bstr.print changed (['B', ':'] ++ formatInt 2 info.biotype ++ [','])
  some <| if changed then
      { s with oldbiotype := info.biotype, olddriver := none, oldidx := -1, bstr }
    else { s with bstr }

/-- A change of the driver resets the index. -/
def printDriver (info : FeatureInfo) (s : PrintState) : Option PrintState := do
  let changed := s.olddriver ≠ some info.driver
  let dstr ← s.dstr.print changed (['D', ':'] ++ info.driver.toList ++ [','])
  some <| if changed then { s with olddriver := some info.driver, oldidx := -1, dstr }
    else { s with dstr }

/-- The index comes with its name; a name alone is no change. -/
def printIndex (info : FeatureInfo) (s : PrintState) : Option PrintState := do
  let changed := s.oldidx ≠ info.index
  let istr ← s.istr.print changed
    (['I', ':'] ++ formatInt 4 info.index ++ ['('] ++ info.indexName.toList ++ [')', ','])
  some <| if changed then { s with oldidx := info.index, istr } else { s with istr }

/-- A line: the four columns, and of the sample its number and the start of its data. -/
structure PrintLine where
  ustr : Bytes
  bstr : Bytes
  dstr : Bytes
  istr : Bytes
  no : ℤ
  data : Bytes
deriving DecidableEq, Repr

/-- One round of the loop. -/
def printSample (info : FeatureInfo) (sample : FeatureSample) (s : PrintState) :
    Option (PrintState × PrintLine) := do
  let s ← printUid info s
  let s ← printBiotype info s
  let s ← printDriver info s
  let s ← printIndex info s
  some (s, { ustr := s.ustr.text, bstr := s.bstr.text, dstr := s.dstr.text, istr := s.istr.text,
             no := sample.no, data := sample.data.take 16 })

/-- The rounds of one feature. -/
def printSamples (info : FeatureInfo) :
    List FeatureSample → PrintState → Option (PrintState × List PrintLine)
  | [], s => some (s, [])
  | sample :: rest, s => do
    let (s, line) ← printSample info sample s
    let (s, lines) ← printSamples info rest s
    some (s, line :: lines)

/-- `print_feature_info`, from its local variables on. -/
def printFeatureInfo : List FeatureInfo → PrintState → Option (List PrintLine)
  | [], _ => some []
  | info :: rest, s =>
    if info.samples = [] then none
    else do
      let (s, lines) ← printSamples info info.samples s
      let more ← printFeatureInfo rest s
      some (lines ++ more)

/-! ### What fits -/

/-- A feature as the requests put it together: its fields are values of their C types, and it has
a sample. -/
structure FeatureInfo.WellFormed (info : FeatureInfo) : Prop where
  uid : IsCInt info.uid
  biotype : IsCInt info.biotype
  index : IsCInt info.index
  driver : ∀ c ∈ info.driver.toList, c ≠ '\x00'
  indexName : ∀ c ∈ info.indexName.toList, c ≠ '\x00'
  samples : info.samples ≠ []

/-- Of these fields the printing needs the numbers, and the sample. A NUL in a text would only end
it early. -/
structure FeatureInfo.Printable (info : FeatureInfo) : Prop where
  uid : IsCInt info.uid
  biotype : IsCInt info.biotype
  index : IsCInt info.index
  samples : info.samples ≠ []

theorem FeatureInfo.WellFormed.printable {info : FeatureInfo} (h : info.WellFormed) :
    info.Printable :=
  ⟨h.uid, h.biotype, h.index, h.samples⟩

/-- Every text that is formatted fits, and every terminator is written inside its buffer, whatever
is in the buffers at the start. -/
def PrintsInside (infos : List FeatureInfo) : Prop :=
  ∀ ustr bstr dstr istr, (printFeatureInfo infos (PrintState.init ustr bstr dstr istr)).isSome

/-- The driver column stays blank between the two. -/
def FeatureInfo.SameDriver (prev info : FeatureInfo) : Prop :=
  prev.uid = info.uid ∧ prev.biotype = info.biotype ∧ prev.driver = info.driver

instance decidableSameDriver (prev info : FeatureInfo) : Decidable (prev.SameDriver info) :=
  inferInstanceAs (Decidable (_ ∧ _))

/-- The index that a feature's is compared with. -/
def oldIndex : Option FeatureInfo → FeatureInfo → ℤ
  | some prev, info => if prev.SameDriver info then prev.index else -1
  | none, _ => -1

/-- What is formatted of a feature behind `prev` fits: the driver with `D:` and a comma, the name
with its index, `I:`, the brackets and a comma. -/
structure FitsBehind (prev : Option FeatureInfo) (info : FeatureInfo) : Prop where
  driver : (∀ p ∈ prev, ¬ p.SameDriver info) →
    (encodeUtf8 info.driver.toList).length + 3 < SL
  indexName : oldIndex prev info ≠ info.index →
    (formatInt 4 info.index).length + (encodeUtf8 info.indexName.toList).length + 5 < SL

/-- Every feature fits behind the one before it. -/
def AllFit : Option FeatureInfo → List FeatureInfo → Prop
  | _, [] => True
  | prev, info :: rest => FitsBehind prev info ∧ AllFit (some info) rest

/-! ### Numbers -/

theorem formatInt_length_le {w : ℕ} {x : ℤ} (hw : w ≤ 11) (hx : IsCInt x) :
    (formatInt w x).length ≤ 11 := by
  obtain ⟨hlower, hupper⟩ := hx
  have hdigits : (Nat.toDigits 10 x.natAbs).length ≤ 10 :=
    (Nat.length_toDigits_le_iff (by decide) (by decide)).mpr (by omega)
  unfold formatInt
  simp only [List.length_append, List.length_replicate]
  split <;> simp only [List.length_cons, List.length_nil] <;> omega

/-- A sign and digits are one byte each. -/
theorem formatInt_ascii {w : ℕ} {x : ℤ} {c : Char} (hc : c ∈ formatInt w x) : c.toNat < 128 := by
  have hdigit : ∀ d : Char, d.isDigit → d.toNat < 128 := by
    intro d hd
    rw [Char.isDigit, Bool.and_eq_true, decide_eq_true_eq, decide_eq_true_eq,
      ge_iff_le, UInt32.le_iff_toNat_le, UInt32.le_iff_toNat_le] at hd
    have hupper : d.toNat ≤ 57 := hd.2
    omega
  unfold formatInt at hc
  rcases List.mem_append.mp hc with hsign | hc
  · split at hsign
    · rw [List.mem_singleton.mp hsign]
      decide
    · cases hsign
  rcases List.mem_append.mp hc with hzero | hc
  · rw [List.eq_of_mem_replicate hzero]
    decide
  · exact hdigit c (Nat.isDigit_of_mem_toDigits (by decide) (by decide) hc)

theorem encodeUtf8_append (text text' : List Char) :
    encodeUtf8 (text ++ text') = encodeUtf8 text ++ encodeUtf8 text' := List.flatMap_append

theorem encodeUtf8_length_ascii {text : List Char} (h : ∀ c ∈ text, c.toNat < 128) :
    (encodeUtf8 text).length = text.length := by
  induction text with
  | nil => rfl
  | cons c text ih =>
    obtain ⟨hc, htext⟩ := List.forall_mem_cons.mp h
    have hone : String.utf8EncodeChar c = [UInt8.ofNat c.val.toNat] :=
      if_pos (Nat.le_of_lt_succ hc)
    rw [encodeUtf8_cons, List.length_append, ih htext, hone, List.length_singleton,
      List.length_cons, Nat.add_comm]

/-- A text of `n` letters takes `n` bytes. -/
theorem encodeUtf8_letters_length (n : ℕ) :
    (encodeUtf8 (String.ofList (List.replicate n 'a')).toList).length = n := by
  rw [String.toList_ofList, encodeUtf8_length_ascii, List.length_replicate]
  intro c hc
  rw [List.eq_of_mem_replicate hc]
  decide

theorem encodeUtf8_formatInt (w : ℕ) (x : ℤ) :
    (encodeUtf8 (formatInt w x)).length = (formatInt w x).length :=
  encodeUtf8_length_ascii fun _ hc => formatInt_ascii hc

/-! ### One column -/

/-- The width of a column lies inside its buffer. -/
def PrintColumn.Inside (col : PrintColumn) : Prop := 0 ≤ col.strL ∧ col.strL < SL

/-- The width of a text is that of the part in front of its first NUL, and no text is wider than
it is long. -/
theorem exists_internalUtf8StrWidth {text : List Char} (hfits : (encodeUtf8 text).length < SL)
    (rest : Bytes) : ∃ width p, internalUtf8StrWidth (encodeUtf8 text ++ 0 :: rest) =
      some (width, p) ∧ 0 ≤ width ∧ width < SL := by
  -- what comes behind the first NUL is not looked at
  obtain ⟨front, behind, rest', hsplit, hfront, hbytes⟩ : ∃ front behind rest',
      text = front ++ behind ∧ (∀ c ∈ front, c ≠ '\x00') ∧
        encodeUtf8 text ++ 0 :: rest = encodeUtf8 front ++ 0 :: rest' := by
    have hfront : ∀ c ∈ text.takeWhile (· ≠ '\x00'), c ≠ '\x00' := by
      intro c hc
      simpa using List.mem_takeWhile_imp hc
    have hsplit : text = text.takeWhile (· ≠ '\x00') ++ text.dropWhile (· ≠ '\x00') :=
      List.takeWhile_append_dropWhile.symm
    cases hbehind : text.dropWhile (· ≠ '\x00') with
    | nil =>
      rw [hbehind, List.append_nil] at hsplit
      rw [← hsplit] at hfront
      exact ⟨text, [], rest, (List.append_nil _).symm, hfront, rfl⟩
    | cons c behind =>
      obtain rfl : c = '\x00' := by
        have hhead := List.head?_dropWhile_not (· ≠ '\x00') text
        rw [hbehind, List.head?_cons] at hhead
        simpa using hhead
      have hnul : String.utf8EncodeChar '\x00' = [0] := rfl
      rw [hbehind] at hsplit
      refine ⟨_, _, encodeUtf8 behind ++ 0 :: rest, hsplit, hfront, ?_⟩
      conv_lhs => rw [hsplit]
      rw [encodeUtf8_append, encodeUtf8_cons, hnul]
      simp
  -- a text is no wider than it is long
  have hle := textWidth_le_length hfront
  have hlen : (encodeUtf8 front).length ≤ (encodeUtf8 text).length := by
    rw [hsplit, encodeUtf8_append, List.length_append]
    exact Nat.le_add_right _ _
  have hint : IsCInt (textWidth front) := by
    unfold SL at hfits
    exact ⟨by omega, by omega⟩
  refine ⟨textWidth front, (encodeUtf8 front).length, ?_, Int.natCast_nonneg _, by omega⟩
  rw [hbytes, internalUtf8StrWidth_encodeUtf8 hfront, cInt_eq_some hint]
  rfl

/-- A text that fits is formatted, and its width lies inside the buffer. -/
theorem exists_format (col : PrintColumn) {text : List Char}
    (hfits : (encodeUtf8 text).length < SL) :
    ∃ col', col.format text = some col' ∧ col'.Inside := by
  obtain ⟨width, p, hwidth, hinside⟩ := exists_internalUtf8StrWidth hfits
    (col.str.drop ((encodeUtf8 text).length + 1))
  refine ⟨⟨encodeUtf8 text ++ 0 :: col.str.drop ((encodeUtf8 text).length + 1), width⟩, ?_,
    hinside⟩
  rw [PrintColumn.format, if_pos hfits]
  simp only [hwidth]
  rfl

/-- A column of a line: what is formatted has to fit, and nothing else. -/
theorem exists_print {col : PrintColumn} (hinside : col.Inside) (changed : Bool)
    {text : List Char} (hfits : changed = true → (encodeUtf8 text).length < SL) :
    ∃ col', col.print changed text = some col' ∧ col'.Inside := by
  cases changed with
  | false => exact ⟨_, if_pos hinside, hinside⟩
  | true => exact exists_format col (hfits rfl)

theorem print_eq_none (col : PrintColumn) {text : List Char}
    (hbig : ¬ (encodeUtf8 text).length < SL) : col.print true text = none := if_neg hbig

/-! ### The texts of a line -/

/-- The marks around a text are one byte each. -/
theorem encodeUtf8_marks_length {before after : List Char} (text : List Char)
    (hbefore : ∀ c ∈ before, c.toNat < 128) (hafter : ∀ c ∈ after, c.toNat < 128) :
    (encodeUtf8 (before ++ text ++ after)).length =
      before.length + (encodeUtf8 text).length + after.length := by
  rw [encodeUtf8_append, encodeUtf8_append, List.length_append, List.length_append,
    encodeUtf8_length_ascii hbefore, encodeUtf8_length_ascii hafter]

/-- A number between two short marks fits into every buffer: it has eleven digits at most, its
sign among them. -/
theorem formatInt_text_length {before : List Char} {w : ℕ} {x : ℤ}
    (hbefore : before.length = 2 ∧ ∀ c ∈ before, c.toNat < 128) (hw : w ≤ 11) (hx : IsCInt x) :
    (encodeUtf8 (before ++ formatInt w x ++ [','])).length < SL := by
  obtain ⟨hmark, hascii⟩ := hbefore
  have hlen : (formatInt w x).length ≤ 11 := formatInt_length_le hw hx
  have hcomma : ∀ c ∈ [','], c.toNat < 128 := by simp
  calc (encodeUtf8 (before ++ formatInt w x ++ [','])).length
      = before.length + (formatInt w x).length + 1 := by
        rw [encodeUtf8_marks_length _ hascii hcomma, encodeUtf8_formatInt]
        rfl
    _ ≤ 14 := by omega
    _ < SL := by decide

/-- The text of the index column, in bytes. -/
theorem index_text_length (info : FeatureInfo) :
    (encodeUtf8 (['I', ':'] ++ formatInt 4 info.index ++ ['('] ++ info.indexName.toList ++
      [')', ','])).length =
      (formatInt 4 info.index).length + (encodeUtf8 info.indexName.toList).length + 5 := by
  rw [encodeUtf8_append, List.length_append, encodeUtf8_append, List.length_append,
    encodeUtf8_marks_length _ (by simp) (by simp), encodeUtf8_formatInt,
    encodeUtf8_length_ascii (show ∀ c ∈ [')', ','], c.toNat < 128 by simp)]
  simp only [List.length_cons, List.length_nil]
  omega

/-! ### A line -/

/-- The four widths lie inside their buffers. -/
structure PrintState.Inside (s : PrintState) : Prop where
  ustr : s.ustr.Inside
  bstr : s.bstr.Inside
  dstr : s.dstr.Inside
  istr : s.istr.Inside

/-- Between two lines: the variables hold the fields of the feature before, if there is one. -/
structure PrintedBehind (prev : Option FeatureInfo) (s : PrintState) : Prop where
  olduid : s.olduid = prev.elim (-1) FeatureInfo.uid
  oldbiotype : s.oldbiotype = prev.elim (-1) FeatureInfo.biotype
  olddriver : s.olddriver = prev.map FeatureInfo.driver
  oldidx : s.oldidx = prev.elim (-1) FeatureInfo.index
  inside : s.Inside

/-- The user column always fits. -/
theorem exists_printUid {info : FeatureInfo} {s : PrintState} (hinfo : info.Printable)
    (hinside : s.Inside) : ∃ s', printUid info s = some s' ∧ s'.Inside ∧ s'.olduid = info.uid ∧
      (s'.oldbiotype, s'.olddriver, s'.oldidx) =
        if s.olduid = info.uid then (s.oldbiotype, s.olddriver, s.oldidx) else (-1, none, -1) := by
  have hfits : (encodeUtf8 (['U', ':'] ++ formatInt 4 info.uid ++ [','])).length < SL :=
    formatInt_text_length (by simp) (by decide) hinfo.uid
  obtain ⟨ustr, hprint, hustr⟩ := exists_print hinside.ustr (s.olduid ≠ info.uid) fun _ => hfits
  unfold printUid
  simp only [hprint]
  by_cases hsame : s.olduid = info.uid
  · refine ⟨{ s with ustr }, ?_, { hinside with ustr := hustr }, hsame, ?_⟩
    · simp [hsame]
    · rw [if_pos hsame]
  · refine ⟨{ s with olduid := info.uid, oldbiotype := -1, olddriver := none, oldidx := -1, ustr },
      ?_, ⟨hustr, hinside.bstr, hinside.dstr, hinside.istr⟩, rfl, ?_⟩
    · simp [hsame]
    · rw [if_neg hsame]

/-- And so does the type column. -/
theorem exists_printBiotype {info : FeatureInfo} {s : PrintState} (hinfo : info.Printable)
    (hinside : s.Inside) : ∃ s', printBiotype info s = some s' ∧ s'.Inside ∧
      s'.olduid = s.olduid ∧ s'.oldbiotype = info.biotype ∧ (s'.olddriver, s'.oldidx) =
        if s.oldbiotype = info.biotype then (s.olddriver, s.oldidx) else (none, -1) := by
  have hfits : (encodeUtf8 (['B', ':'] ++ formatInt 2 info.biotype ++ [','])).length < SL :=
    formatInt_text_length (by simp) (by decide) hinfo.biotype
  obtain ⟨bstr, hprint, hbstr⟩ :=
    exists_print hinside.bstr (s.oldbiotype ≠ info.biotype) fun _ => hfits
  unfold printBiotype
  simp only [hprint]
  by_cases hsame : s.oldbiotype = info.biotype
  · refine ⟨{ s with bstr }, ?_, { hinside with bstr := hbstr }, rfl, hsame, ?_⟩
    · simp [hsame]
    · rw [if_pos hsame]
  · refine ⟨{ s with oldbiotype := info.biotype, olddriver := none, oldidx := -1, bstr }, ?_,
      ⟨hinside.ustr, hbstr, hinside.dstr, hinside.istr⟩, rfl, rfl, ?_⟩
    · simp [hsame]
    · rw [if_neg hsame]

/-- The driver column fits if the driver does. -/
theorem exists_printDriver {info : FeatureInfo} {s : PrintState} (hinside : s.Inside)
    (hfits : s.olddriver ≠ some info.driver →
      (encodeUtf8 info.driver.toList).length + 3 < SL) :
    ∃ s', printDriver info s = some s' ∧ s'.Inside ∧ s'.olduid = s.olduid ∧
      s'.oldbiotype = s.oldbiotype ∧ s'.olddriver = some info.driver ∧
      s'.oldidx = if s.olddriver = some info.driver then s.oldidx else -1 := by
  -- the text is made again only where the driver changes
  obtain ⟨dstr, hprint, hdstr⟩ := @exists_print _ hinside.dstr (s.olddriver ≠ some info.driver)
    (['D', ':'] ++ info.driver.toList ++ [',']) fun hchanged => by
      have hlen := hfits (of_decide_eq_true hchanged)
      rw [encodeUtf8_marks_length _ (by simp) (by simp)]
      simp only [List.length_cons, List.length_nil]
      omega
  -- the columns of the other fields are not touched
  unfold printDriver
  simp only [hprint]
  by_cases hsame : s.olddriver = some info.driver
  · -- the same driver: the index is compared with the last one
    refine ⟨{ s with dstr }, ?_, { hinside with dstr := hdstr }, rfl, rfl, hsame, ?_⟩
    · simp [hsame]
    · rw [if_pos hsame]
  · -- another driver: the index is printed again
    refine ⟨{ s with olddriver := some info.driver, oldidx := -1, dstr }, ?_,
      ⟨hinside.ustr, hinside.bstr, hdstr, hinside.istr⟩, rfl, rfl, rfl, ?_⟩
    · simp [hsame]
    · rw [if_neg hsame]

theorem printDriver_eq_none {info : FeatureInfo} {s : PrintState}
    (hchanged : s.olddriver ≠ some info.driver)
    (hbig : ¬ (encodeUtf8 info.driver.toList).length + 3 < SL) : printDriver info s = none := by
  have hprint : s.dstr.print true (['D', ':'] ++ info.driver.toList ++ [',']) = none := by
    refine print_eq_none _ fun hlen => hbig ?_
    rw [encodeUtf8_marks_length _ (by simp) (by simp)] at hlen
    simp only [List.length_cons, List.length_nil] at hlen
    omega
  simp only [printDriver, ne_eq, hchanged, not_false_eq_true, decide_true, hprint]
  rfl

/-- The index column fits if the name does. -/
theorem exists_printIndex {info : FeatureInfo} {s : PrintState} (hinside : s.Inside)
    (hfits : s.oldidx ≠ info.index →
      (formatInt 4 info.index).length + (encodeUtf8 info.indexName.toList).length + 5 < SL) :
    ∃ s', printIndex info s = some s' ∧ s'.Inside ∧ s'.olduid = s.olduid ∧
      s'.oldbiotype = s.oldbiotype ∧ s'.olddriver = s.olddriver ∧ s'.oldidx = info.index := by
  have hlen : s.oldidx ≠ info.index → (encodeUtf8 (['I', ':'] ++ formatInt 4 info.index ++ ['('] ++
      info.indexName.toList ++ [')', ','])).length < SL := by
    intro hchanged
    rw [index_text_length]
    exact hfits hchanged
  obtain ⟨istr, hprint, histr⟩ := exists_print hinside.istr (s.oldidx ≠ info.index)
    fun hchanged => hlen (of_decide_eq_true hchanged)
  unfold printIndex
  simp only [hprint]
  by_cases hsame : s.oldidx = info.index
  · refine ⟨{ s with istr }, ?_, { hinside with istr := histr }, rfl, rfl, rfl, hsame⟩
    simp [hsame]
  · refine ⟨{ s with oldidx := info.index, istr }, ?_,
      ⟨hinside.ustr, hinside.bstr, hinside.dstr, histr⟩, rfl, rfl, rfl, rfl⟩
    simp [hsame]

theorem printIndex_eq_none {info : FeatureInfo} {s : PrintState} (hchanged : s.oldidx ≠ info.index)
    (hbig : ¬ (formatInt 4 info.index).length + (encodeUtf8 info.indexName.toList).length + 5 <
      SL) : printIndex info s = none := by
  have hprint : s.istr.print true (['I', ':'] ++ formatInt 4 info.index ++ ['('] ++
      info.indexName.toList ++ [')', ',']) = none := by
    refine print_eq_none _ fun hlen => hbig ?_
    rwa [index_text_length] at hlen
  simp only [printIndex, ne_eq, hchanged, not_false_eq_true, decide_true, hprint]
  rfl

/-- In front of the driver column: what is left of the feature before. -/
theorem exists_before_printDriver {prev : Option FeatureInfo} {info : FeatureInfo} {s : PrintState}
    (hinfo : info.Printable) (hprev : PrintedBehind prev s) :
    ∃ s', (printUid info s).bind (printBiotype info) = some s' ∧ s'.Inside ∧
      s'.olduid = info.uid ∧ s'.oldbiotype = info.biotype ∧
      (s'.olddriver = some info.driver ↔ ∃ p ∈ prev, p.SameDriver info) ∧
      (if s'.olddriver = some info.driver then s'.oldidx else -1) = oldIndex prev info := by
  obtain ⟨s₁, huid, hinside₁, holduid₁, hold₁⟩ := exists_printUid hinfo hprev.inside
  obtain ⟨s₂, hbiotype, hinside₂, holduid₂, hbiotype₂, hold₂⟩ := exists_printBiotype hinfo hinside₁
  refine ⟨s₂, by rw [huid]; exact hbiotype, hinside₂, holduid₂.trans holduid₁, hbiotype₂, ?_⟩
  -- the first feature: all three are compared with what no feature has
  cases prev with
  | none =>
    have hold : (s.oldbiotype, s.olddriver, s.oldidx) = (-1, none, -1) := by
      rw [hprev.oldbiotype, hprev.olddriver, hprev.oldidx]
      rfl
    rw [hold, ite_self, Prod.mk.injEq, Prod.mk.injEq] at hold₁
    rw [hold₁.2.1, hold₁.2.2, ite_self, Prod.mk.injEq] at hold₂
    simp [hold₂, oldIndex]
  | some p =>
    -- a later one is compared with the one before, as far as user and type are its own
    have holduid : s.olduid = p.uid := hprev.olduid
    have hold : (s.oldbiotype, s.olddriver, s.oldidx) = (p.biotype, some p.driver, p.index) := by
      rw [hprev.oldbiotype, hprev.olddriver, hprev.oldidx]
      rfl
    rw [holduid, hold] at hold₁
    by_cases huid : p.uid = info.uid
    · rw [if_pos huid, Prod.mk.injEq, Prod.mk.injEq] at hold₁
      obtain ⟨hbio₁, hdriver₁, hidx₁⟩ := hold₁
      rw [hbio₁, hdriver₁, hidx₁] at hold₂
      by_cases hbio : p.biotype = info.biotype
      · -- user and type stay: the driver decides
        rw [if_pos hbio, Prod.mk.injEq] at hold₂
        simp [hold₂, oldIndex, FeatureInfo.SameDriver, huid, hbio]
      · -- another type: the driver is printed
        rw [if_neg hbio, Prod.mk.injEq] at hold₂
        simp [hold₂, oldIndex, FeatureInfo.SameDriver, hbio]
    · -- another user: the driver is printed
      rw [if_neg huid, Prod.mk.injEq, Prod.mk.injEq] at hold₁
      rw [hold₁.2.1, hold₁.2.2, ite_self, Prod.mk.injEq] at hold₂
      simp [hold₂, oldIndex, FeatureInfo.SameDriver, huid]

/-- One line: it is printed exactly if the feature fits behind the one before, and leaves the
fields of its feature in the variables. -/
theorem exists_printSample {prev : Option FeatureInfo} {info : FeatureInfo} {s : PrintState}
    (hinfo : info.Printable) (hprev : PrintedBehind prev s) (hfits : FitsBehind prev info)
    (sample : FeatureSample) :
    ∃ s' line, printSample info sample s = some (s', line) ∧ PrintedBehind (some info) s' := by
  -- the columns before the driver always fit
  obtain ⟨s₂, hfront, hinside₂, holduid₂, hbio₂, hsame, holdidx⟩ :=
    exists_before_printDriver hinfo hprev
  -- the driver's column
  obtain ⟨s₃, hdriver, hinside₃, holduid₃, hbio₃, hdriver₃, hidx₃⟩ :=
    exists_printDriver hinside₂ fun hchanged =>
      hfits.driver fun p hp hp' => hchanged (hsame.mpr ⟨p, hp, hp'⟩)
  rw [holdidx] at hidx₃
  -- the column of the index and its name
  obtain ⟨s₄, hindex, hinside₄, holduid₄, hbio₄, hdriver₄, hidx₄⟩ :=
    exists_printIndex hinside₃ (by rw [hidx₃]; exact hfits.indexName)
  obtain ⟨s₁, huid, hbiotype⟩ := Option.bind_eq_some_iff.mp hfront
  -- the line is made of the four
  have hline : printSample info sample s = some (s₄,
      { ustr := s₄.ustr.text, bstr := s₄.bstr.text, dstr := s₄.dstr.text, istr := s₄.istr.text,
        no := sample.no, data := sample.data.take 16 }) := by
    simp only [printSample, huid, hbiotype, hdriver, hindex, Option.bind_eq_bind,
      Option.bind_some]
  refine ⟨s₄, _, hline, ?_, ?_, ?_, hidx₄, hinside₄⟩
  · -- the variables have the fields of the feature
    rw [holduid₄, holduid₃, holduid₂]
    rfl
  · rw [hbio₄, hbio₃, hbio₂]
    rfl
  · rw [hdriver₄, hdriver₃]
    rfl

theorem printSample_eq_none {prev : Option FeatureInfo} {info : FeatureInfo} {s : PrintState}
    (hinfo : info.Printable) (hprev : PrintedBehind prev s) (hfits : ¬ FitsBehind prev info)
    (sample : FeatureSample) : printSample info sample s = none := by
  obtain ⟨s₂, hfront, hinside₂, -, -, hsame, holdidx⟩ := exists_before_printDriver hinfo hprev
  obtain ⟨s₁, huid, hbiotype⟩ := Option.bind_eq_some_iff.mp hfront
  unfold printSample
  simp only [huid, hbiotype, Option.bind_eq_bind, Option.bind_some]
  by_cases hdriverFits : s₂.olddriver ≠ some info.driver →
      (encodeUtf8 info.driver.toList).length + 3 < SL
  · -- the driver fits, so it is the name that does not
    obtain ⟨s₃, hdriver, -, -, -, -, hidx₃⟩ := exists_printDriver hinside₂ hdriverFits
    rw [holdidx] at hidx₃
    have hname : ¬ (oldIndex prev info ≠ info.index → (formatInt 4 info.index).length +
        (encodeUtf8 info.indexName.toList).length + 5 < SL) := by
      intro hname
      refine hfits ⟨fun hnew => hdriverFits fun hdriver => ?_, hname⟩
      obtain ⟨p, hp, hp'⟩ := hsame.mp hdriver
      exact hnew p hp hp'
    obtain ⟨hchanged, hbig⟩ := Classical.not_imp.mp hname
    rw [hdriver, Option.bind_some, printIndex_eq_none (by rwa [hidx₃]) hbig, Option.bind_none]
  · obtain ⟨hchanged, hbig⟩ := Classical.not_imp.mp hdriverFits
    rw [printDriver_eq_none hchanged hbig, Option.bind_none]

/-! ### A list -/

/-- Behind itself a feature is blank. -/
theorem fitsBehind_self (info : FeatureInfo) : FitsBehind (some info) info := by
  have hsame : info.SameDriver info := ⟨rfl, rfl, rfl⟩
  refine ⟨fun hnew => absurd hsame (hnew info rfl), fun hchanged => absurd ?_ hchanged⟩
  exact if_pos hsame

/-- The further samples of a feature. -/
theorem exists_printSamples {info : FeatureInfo} (hinfo : info.Printable)
    (samples : List FeatureSample) {s : PrintState} (hprev : PrintedBehind (some info) s) :
    ∃ s' lines, printSamples info samples s = some (s', lines) ∧
      PrintedBehind (some info) s' := by
  induction samples generalizing s with
  | nil => exact ⟨s, [], rfl, hprev⟩
  | cons sample rest ih =>
    obtain ⟨s₁, line, hline, hprev₁⟩ :=
      exists_printSample hinfo hprev (fitsBehind_self info) sample
    obtain ⟨s₂, lines, hlines, hprev₂⟩ := ih hprev₁
    refine ⟨s₂, line :: lines, ?_, hprev₂⟩
    simp only [printSamples, hline, hlines, Option.bind_eq_bind, Option.bind_some]

/-- One feature: its first sample decides. -/
theorem exists_printSamples_of_fits {prev : Option FeatureInfo} {info : FeatureInfo}
    {s : PrintState} (hinfo : info.Printable) (hprev : PrintedBehind prev s)
    (hfits : FitsBehind prev info) :
    ∃ s' lines, printSamples info info.samples s = some (s', lines) ∧
      PrintedBehind (some info) s' := by
  cases hsamples : info.samples with
  | nil => exact absurd hsamples hinfo.samples
  | cons sample rest =>
    obtain ⟨s₁, line, hline, hprev₁⟩ := exists_printSample hinfo hprev hfits sample
    obtain ⟨s₂, lines, hlines, hprev₂⟩ := exists_printSamples hinfo rest hprev₁
    refine ⟨s₂, line :: lines, ?_, hprev₂⟩
    simp only [printSamples, hline, hlines, Option.bind_eq_bind, Option.bind_some]

theorem printSamples_eq_none {prev : Option FeatureInfo} {info : FeatureInfo} {s : PrintState}
    (hinfo : info.Printable) (hprev : PrintedBehind prev s) (hfits : ¬ FitsBehind prev info) :
    printSamples info info.samples s = none := by
  cases hsamples : info.samples with
  | nil => exact absurd hsamples hinfo.samples
  | cons sample rest =>
    simp only [printSamples, printSample_eq_none hinfo hprev hfits sample, Option.bind_eq_bind,
      Option.bind_none]

/-- The loop, from any feature on. -/
theorem printFeatureInfo_isSome_iff (infos : List FeatureInfo)
    (hinfos : ∀ info ∈ infos, info.Printable) {prev : Option FeatureInfo} {s : PrintState}
    (hprev : PrintedBehind prev s) :
    (printFeatureInfo infos s).isSome ↔ AllFit prev infos := by
  induction infos generalizing prev s with
  | nil => exact iff_of_true rfl trivial
  | cons info rest ih =>
    obtain ⟨hinfo, hrest⟩ := List.forall_mem_cons.mp hinfos
    rw [printFeatureInfo, if_neg hinfo.samples]
    by_cases hfits : FitsBehind prev info
    · obtain ⟨s', lines, hlines, hprev'⟩ := exists_printSamples_of_fits hinfo hprev hfits
      have hiff : AllFit prev (info :: rest) ↔ AllFit (some info) rest := and_iff_right hfits
      simp only [hlines, Option.bind_eq_bind, Option.bind_some]
      rw [hiff, ← ih hrest hprev']
      cases printFeatureInfo rest s' <;> simp
    · rw [printSamples_eq_none hinfo hprev hfits]
      exact iff_of_false (by simp) fun hall => hfits hall.1

theorem printedBehind_init (ustr bstr dstr istr : Bytes) :
    PrintedBehind none (PrintState.init ustr bstr dstr istr) := by
  have hinside : ∀ str, PrintColumn.Inside ⟨str, 0⟩ := by
    intro str
    exact ⟨le_rfl, Int.natCast_pos.mpr (by decide)⟩
  exact ⟨rfl, rfl, rfl, rfl, ⟨hinside _, hinside _, hinside _, hinside _⟩⟩

/-- The buffers hold out exactly if all that is formatted is short enough. -/
theorem printsInside_iff_allFit (infos : List FeatureInfo)
    (hinfos : ∀ info ∈ infos, info.Printable) : PrintsInside infos ↔ AllFit none infos := by
  constructor
  · intro hinside
    exact (printFeatureInfo_isSome_iff infos hinfos (printedBehind_init [] [] [] [])).mp
      (hinside [] [] [] [])
  · intro hfits ustr bstr dstr istr
    exact (printFeatureInfo_isSome_iff infos hinfos (printedBehind_init ustr bstr dstr istr)).mpr
      hfits

/-- So it is with the features that the requests put together. -/
theorem printsInside_iff (infos : List FeatureInfo) (hwf : ∀ info ∈ infos, info.WellFormed) :
    PrintsInside infos ↔ AllFit none infos :=
  printsInside_iff_allFit infos fun info hinfo => (hwf info hinfo).printable

/-! ### The call -/

/-- A call of `print_feature_info`; `none` where it overruns a buffer. What the buffers hold before
it makes no difference to that (`printsInside_iff_printList`). -/
def printList (infos : List FeatureInfo) : Option Unit :=
  (printFeatureInfo infos (PrintState.init [] [] [] [])).map fun _ => ()

@[simp] theorem printList_nil : printList [] = some () := rfl

theorem printList_eq_some_iff {infos : List FeatureInfo} :
    printList infos = some () ↔ (printFeatureInfo infos (PrintState.init [] [] [] [])).isSome := by
  unfold printList
  cases printFeatureInfo infos (PrintState.init [] [] [] []) <;> simp

/-- A list is printed exactly if what is formatted of it is short enough. -/
theorem printList_iff_allFit {infos : List FeatureInfo}
    (hinfos : ∀ info ∈ infos, info.Printable) :
    printList infos = some () ↔ AllFit none infos :=
  printList_eq_some_iff.trans
    (printFeatureInfo_isSome_iff infos hinfos (printedBehind_init [] [] [] []))

theorem printsInside_iff_printList {infos : List FeatureInfo}
    (hinfos : ∀ info ∈ infos, info.Printable) :
    PrintsInside infos ↔ printList infos = some () :=
  (printsInside_iff_allFit infos hinfos).trans (printList_iff_allFit hinfos).symm

/-- The driver and the name of a feature fit into their columns, whatever stands before it. -/
structure FitsLine (driver : String) (index : ℤ) (indexName : String) : Prop where
  driver : (encodeUtf8 driver.toList).length + 3 < SL
  indexName : (formatInt 4 index).length + (encodeUtf8 indexName.toList).length + 5 < SL

theorem fitsLine_iff {driver indexName : String} {index : ℤ} : FitsLine driver index indexName ↔
    (encodeUtf8 driver.toList).length + 3 < SL ∧
      (formatInt 4 index).length + (encodeUtf8 indexName.toList).length + 5 < SL :=
  ⟨fun h => ⟨h.driver, h.indexName⟩, fun h => ⟨h.1, h.2⟩⟩

instance (driver : String) (index : ℤ) (indexName : String) :
    Decidable (FitsLine driver index indexName) := decidable_of_iff' _ fitsLine_iff

/-- A feature whose fields fit. -/
def FeatureInfo.Fits (info : FeatureInfo) : Prop := FitsLine info.driver info.index info.indexName

instance (info : FeatureInfo) : Decidable info.Fits :=
  inferInstanceAs (Decidable (FitsLine _ _ _))

theorem allFit_of_fits {prev : Option FeatureInfo} {infos : List FeatureInfo}
    (h : ∀ info ∈ infos, info.Fits) : AllFit prev infos := by
  induction infos generalizing prev with
  | nil => trivial
  | cons info infos ih =>
    rw [List.forall_mem_cons] at h
    exact ⟨⟨fun _ => h.1.driver, fun _ => h.1.indexName⟩, ih h.2⟩

/-- In the order of the indices each feature of a driver is printed with its name. -/
theorem AllFit.fits {prev : Option FeatureInfo} {infos : List FeatureInfo} {driver : String}
    (h : AllFit prev infos) (hdriver : ∀ info ∈ infos, info.driver = driver)
    (hindex : infos.Pairwise fun f g => f.index < g.index)
    (hprev : ∀ p ∈ prev, (encodeUtf8 driver.toList).length + 3 < SL ∧
      ∀ info ∈ infos, p.index < info.index)
    {info : FeatureInfo} (hinfo : info ∈ infos) (hne : info.index ≠ -1) : info.Fits := by
  induction infos generalizing prev with
  | nil => cases hinfo
  | cons first rest ih =>
    obtain ⟨hfirst, hrest⟩ := h
    obtain ⟨hdriver₁, hdriver⟩ := List.forall_mem_cons.mp hdriver
    obtain ⟨hindex₁, hindex⟩ := List.pairwise_cons.mp hindex
    -- the driver's column fits, now or because it was printed before
    have hcolumn : (encodeUtf8 driver.toList).length + 3 < SL := by
      cases prev with
      | none => exact hdriver₁ ▸ hfirst.driver (by simp)
      | some p => exact (hprev p rfl).1
    rcases List.mem_cons.mp hinfo with heq | hinfo
    · -- this feature: its index is a new one, so its name is printed
      rw [heq] at hne ⊢
      refine ⟨hdriver₁ ▸ hcolumn, hfirst.indexName ?_⟩
      cases prev with
      | none => exact hne.symm
      | some p =>
        show (if p.SameDriver first then p.index else -1) ≠ first.index
        split
        · -- of the same driver, and the indices increase
          exact ((hprev p rfl).2 first (by simp)).ne
        · exact hne.symm
    · -- a later one
      refine ih hrest hdriver hindex (fun p hp => ?_) hinfo
      obtain rfl := Option.some.inj hp
      exact ⟨hcolumn, hindex₁⟩

/-- A list of features that fit is printed. -/
theorem printList_of_fits {infos : List FeatureInfo} (hinfos : ∀ info ∈ infos, info.Printable)
    (hfits : ∀ info ∈ infos, info.Fits) : printList infos = some () :=
  (printList_iff_allFit hinfos).mpr (allFit_of_fits hfits)

/-- A feature alone is printed exactly if its fields fit; the index `-1` is taken for printed. -/
theorem printList_singleton_iff {info : FeatureInfo} (hinfo : info.Printable)
    (hindex : info.index ≠ -1) : printList [info] = some () ↔ info.Fits := by
  rw [printList_iff_allFit (List.forall_mem_singleton.mpr hinfo)]
  constructor
  · rintro ⟨hfits, -⟩
    exact ⟨hfits.driver (by simp), hfits.indexName (Ne.symm hindex)⟩
  · exact fun h => allFit_of_fits (List.forall_mem_singleton.mpr h)

/-- How the driver gets a list: it reads it, and prints it. -/
def listFeatureInfo (uuidOf : ℤ → String) (db : EigenInfo) (q : FeatureQuery) :
    Option (List FeatureInfo) := do
  let infos ← bioStoGetFeatureInfo uuidOf db q
  printList infos
  some infos

theorem listFeatureInfo_eq_some_iff {uuidOf : ℤ → String} {db : EigenInfo} {q : FeatureQuery}
    {infos : List FeatureInfo} : listFeatureInfo uuidOf db q = some infos ↔
      bioStoGetFeatureInfo uuidOf db q = some infos ∧ printList infos = some () := by
  simp only [listFeatureInfo, Option.bind_eq_bind, Option.bind_eq_some_iff, Option.some.injEq]
  constructor
  · rintro ⟨infos', hread, ⟨⟩, hprint, rfl⟩
    exact ⟨hread, hprint⟩
  · rintro ⟨hread, hprint⟩
    exact ⟨infos, hread, (), hprint, rfl⟩

/-- A feature of user 1000 with one sample. -/
def fingerNamed (indexName : String) : FeatureInfo where
  uid := 1000
  biotype := 0
  driver := "uru4000"
  index := 1
  indexName := indexName
  samples := [{ dbid := 0, no := 4, data := [77, 84, 73, 122] }]

theorem fingerNamed_wellFormed {indexName : String} (h : ∀ c ∈ indexName.toList, c ≠ '\x00') :
    (fingerNamed indexName).WellFormed where
  uid := show IsCInt 1000 by decide
  biotype := show IsCInt 0 by decide
  index := show IsCInt 1 by decide
  driver := by simp [fingerNamed]
  indexName := h
  samples := List.cons_ne_nil _ _

/-- A name of a few letters. -/
theorem printsInside_thumb : PrintsInside [fingerNamed "left thumb"] :=
  (printsInside_iff _ (List.forall_mem_singleton.mpr (fingerNamed_wellFormed (by simp)))).mpr
    ⟨⟨fun _ => by decide, fun _ => by decide⟩, trivial⟩

/-- A name of 1015 letters is one byte too long. -/
theorem not_printsInside :
    ¬ ∀ infos, (∀ info ∈ infos, FeatureInfo.WellFormed info) → PrintsInside infos := by
  intro hall
  obtain ⟨name, hname⟩ : ∃ name, name = String.ofList (List.replicate 1015 'a') := ⟨_, rfl⟩
  have hlen : (encodeUtf8 name.toList).length = 1015 := hname ▸ encodeUtf8_letters_length 1015
  have hwf : ∀ info ∈ [fingerNamed name], FeatureInfo.WellFormed info := by
    refine List.forall_mem_singleton.mpr (fingerNamed_wellFormed fun c hc => ?_)
    rw [hname, String.toList_ofList] at hc
    rw [List.eq_of_mem_replicate hc]
    decide
  have hfits : AllFit none [fingerNamed name] :=
    (printsInside_iff_allFit _ fun info hinfo => (hwf info hinfo).printable).mp (hall _ hwf)
  have hindex : (formatInt 4 1).length + (encodeUtf8 name.toList).length + 5 < SL :=
    hfits.1.indexName (show (-1 : ℤ) ≠ 1 by decide)
  rw [hlen] at hindex
  exact absurd hindex (by decide)

end BiometricAuth
