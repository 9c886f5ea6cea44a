import Mathlib.Data.List.Basic

/-!
# Textual UUIDs

A UUID library with two calls: `parse` reads a UUID from a text, `unparseLower` writes it.
`UuidLibrary.Lawful` is what they are documented to do: a text has 36 bytes, all of them printable,
and a UUID that was written can be read.

`hexLibrary` is such a library, of 32 hexadecimal digits in five groups. Letters are read in both
cases.
-/

/-- The calls, for UUIDs in `υ`; `none` is a text that is no UUID. -/
structure UuidLibrary (υ : Type) where
  parse : List UInt8 → Option υ
  unparseLower : υ → List UInt8

/-- The laws of the calls. -/
structure UuidLibrary.Lawful {υ : Type} (lib : UuidLibrary υ) : Prop where
  parse_unparseLower : ∀ u, lib.parse (lib.unparseLower u) = some u
  length_unparseLower : ∀ u, (lib.unparseLower u).length = 36
  printable : ∀ u, ∀ b ∈ lib.unparseLower u, 32 < b

namespace HexUuid

/-- A lower-case digit. -/
def hexDigit (x : Fin 16) : UInt8 := if x.val < 10 then 48 + x.val.toUInt8 else 87 + x.val.toUInt8

/-- The value of a digit in either case. -/
def hexVal (b : UInt8) : Option (Fin 16) :=
  if 48 ≤ b ∧ b ≤ 57 then some (Fin.ofNat 16 (b - 48).toNat)
  else if 97 ≤ b ∧ b ≤ 102 then some (Fin.ofNat 16 (b - 87).toNat)
  else if 65 ≤ b ∧ b ≤ 70 then some (Fin.ofNat 16 (b - 55).toNat)
  else none

theorem hexVal_hexDigit : ∀ x, hexVal (hexDigit x) = some x := by decide

theorem hexDigit_printable : ∀ x, 32 < hexDigit x := by decide

/-- Where the text has a digit, and where a hyphen. -/
def layout : List Bool :=
  List.replicate 8 true ++ false :: List.replicate 4 true ++ false :: List.replicate 4 true ++
    false :: List.replicate 4 true ++ false :: List.replicate 12 true

/-- Digits in a layout. -/
def write : List Bool → List (Fin 16) → List UInt8
  | true :: places, x :: digits => hexDigit x :: write places digits
  | false :: places, digits => 45 :: write places digits
  | _, _ => []

/-- The digits of a text of this layout. -/
def read : List Bool → List UInt8 → Option (List (Fin 16))
  | true :: places, b :: text => do
    let x ← hexVal b
    let digits ← read places text
    some (x :: digits)
  | false :: places, b :: text => if b = 45 then read places text else none
  | [], [] => some []
  | _, _ => none

/-- Digits that fill a layout can be read from it. -/
theorem read_write (places : List Bool) (digits : List (Fin 16))
    (h : places.count true = digits.length) : read places (write places digits) = some digits := by
  induction places generalizing digits with
  | nil =>
    obtain rfl := List.length_eq_zero_iff.mp h.symm
    rfl
  | cons place places ih =>
    cases place with
    | false =>
      rw [write, read, if_pos rfl]
      exact ih digits h
    | true =>
      cases digits with
      | nil => simp at h
      | cons x digits =>
        have hrest := ih digits (by simpa using h)
        simp only [write, read, hexVal_hexDigit, hrest, Option.bind_eq_bind, Option.bind_some]

theorem length_write (places : List Bool) (digits : List (Fin 16))
    (h : places.count true = digits.length) : (write places digits).length = places.length := by
  induction places generalizing digits with
  | nil => rfl
  | cons place places ih =>
    cases place with
    | false =>
      rw [write, List.length_cons, List.length_cons]
      exact congrArg (· + 1) (ih digits h)
    | true =>
      cases digits with
      | nil => simp at h
      | cons x digits =>
        rw [write, List.length_cons, List.length_cons, ih digits (by simpa using h)]

theorem write_printable (places : List Bool) (digits : List (Fin 16)) :
    ∀ b ∈ write places digits, 32 < b := by
  induction places generalizing digits with
  | nil => simp [write]
  | cons place places ih =>
    cases place with
    | false =>
      rw [write, List.forall_mem_cons]
      exact ⟨by decide, ih digits⟩
    | true =>
      cases digits with
      | nil => simp [write]
      | cons x digits =>
        rw [write, List.forall_mem_cons]
        exact ⟨hexDigit_printable x, ih digits⟩

/-- UUIDs as 32 digits. -/
abbrev Digits : Type := { digits : List (Fin 16) // digits.length = 32 }

instance inhabitedDigits : Inhabited Digits := ⟨List.replicate 32 0, rfl⟩

/-- The library. -/
def hexLibrary : UuidLibrary Digits where
  parse text := (read layout text).bind fun digits =>
    if h : digits.length = 32 then some ⟨digits, h⟩ else none
  unparseLower u := write layout u.val

theorem layout_count : layout.count true = 32 := by decide

theorem hexLibrary_lawful : hexLibrary.Lawful where
  parse_unparseLower u := by
    have hread := read_write layout u.val (layout_count.trans u.property.symm)
    simp only [hexLibrary, hread, Option.bind_some, u.property, dif_pos]
  length_unparseLower u := by
    rw [hexLibrary, length_write layout u.val (layout_count.trans u.property.symm)]
    rfl
  printable u := write_printable layout u.val

end HexUuid
