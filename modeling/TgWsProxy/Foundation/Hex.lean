import Mathlib.Data.List.Basic

/-!
# Hexadecimal text

What a development may assume of a hexadecimal codec: encoding is undone by
decoding, text is decoded pair by pair from the left, and two lower-case digits
stand for their byte. The standard codec, which accepts digits of either case and
writes lower-case ones, obeys these laws.
-/

namespace Foundation.Hex

abbrev Bytes := List UInt8

/-- The lower-case digit of a half byte. -/
def digit (value : Nat) : Char :=
  if value < 10 then Char.ofNat (48 + value) else Char.ofNat (87 + value)

/-- The two digits of a byte, high half first. -/
def pair (byte : UInt8) : List Char := [digit (byte.toNat / 16), digit (byte.toNat % 16)]

structure Codec where
  encode : Bytes → String
  decode : String → Option Bytes
  decode_encode : ∀ bytes, decode (encode bytes) = some bytes
  decode_append : ∀ first second bytes, decode first = some bytes →
    decode (first ++ second) = (decode second).map (bytes ++ ·)
  decode_pair : ∀ byte, decode (String.ofList (pair byte)) = some [byte]

/-! ## The standard codec -/

def digitValue (char : Char) : Option Nat :=
  if '0' ≤ char ∧ char ≤ '9' then some (char.toNat - 48)
  else if 'a' ≤ char ∧ char ≤ 'f' then some (char.toNat - 87)
  else if 'A' ≤ char ∧ char ≤ 'F' then some (char.toNat - 55)
  else none

def decodeChars : List Char → Option Bytes
  | [] => some []
  | [_] => none
  | high :: low :: rest =>
      (digitValue high).bind fun highValue =>
        (digitValue low).bind fun lowValue =>
          (decodeChars rest).map (UInt8.ofNat (16 * highValue + lowValue) :: ·)

theorem digitValue_digit {value : Nat} (hvalue : value < 16) :
    digitValue (digit value) = some value := by
  have hall : ∀ value : Fin 16, digitValue (digit value) = some value.val := by decide
  exact hall ⟨value, hvalue⟩

theorem decodeChars_pair (byte : UInt8) (rest : List Char) :
    decodeChars (pair byte ++ rest) = (decodeChars rest).map (byte :: ·) := by
  have hbyte : byte.toNat < 256 := byte.toNat_lt
  have hhigh : digitValue (digit (byte.toNat / 16)) = some (byte.toNat / 16) :=
    digitValue_digit (by omega)
  have hlow : digitValue (digit (byte.toNat % 16)) = some (byte.toNat % 16) :=
    digitValue_digit (by omega)
  have hsum : UInt8.ofNat (16 * (byte.toNat / 16) + byte.toNat % 16) = byte := by
    rw [Nat.div_add_mod]
    exact UInt8.ofNat_toNat
  simp only [pair, List.cons_append, List.nil_append, decodeChars, hhigh, hlow, Option.bind_some,
    hsum]

theorem decodeChars_encode (bytes : Bytes) : decodeChars (bytes.flatMap pair) = some bytes := by
  induction bytes with
  | nil => rfl
  | cons byte rest ih =>
      rw [List.flatMap_cons, decodeChars_pair, ih]
      rfl

theorem decodeChars_append {first : List Char} {bytes : Bytes}
    (hfirst : decodeChars first = some bytes) (second : List Char) :
    decodeChars (first ++ second) = (decodeChars second).map (bytes ++ ·) := by
  induction first using decodeChars.induct generalizing bytes with
  | case1 =>
      cases hfirst
      simp
  | case2 char => cases hfirst
  | case3 high low rest ih =>
      simp only [decodeChars, Option.bind_eq_some_iff, Option.map_eq_some_iff] at hfirst
      obtain ⟨highValue, hhigh, lowValue, hlow, tail, htail, rfl⟩ := hfirst
      simp only [List.cons_append, decodeChars, hhigh, hlow, Option.bind_some, ih htail,
        Option.map_map]
      rfl

/-- Text that decodes has digits only. -/
theorem not_mem_of_decodeChars {text : List Char} {bytes : Bytes} {char : Char}
    (hdecode : decodeChars text = some bytes) (hchar : digitValue char = none) : char ∉ text := by
  induction text using decodeChars.induct generalizing bytes with
  | case1 => exact List.not_mem_nil
  | case2 char => cases hdecode
  | case3 high low rest ih =>
      simp only [decodeChars, Option.bind_eq_some_iff, Option.map_eq_some_iff] at hdecode
      obtain ⟨highValue, hhigh, lowValue, hlow, tail, htail, -⟩ := hdecode
      have hne : ∀ {digit value}, digitValue digit = some value → char ≠ digit := by
        rintro digit value hdigit rfl
        cases hchar.symm.trans hdigit
      simp only [List.mem_cons, not_or]
      exact ⟨hne hhigh, hne hlow, ih htail⟩

/-- Either case is read, lower case is written. -/
def standard : Codec where
  encode bytes := String.ofList (bytes.flatMap pair)
  decode text := decodeChars text.toList
  decode_encode bytes := by
    rw [String.toList_ofList]
    exact decodeChars_encode bytes
  decode_append first second bytes hfirst := by
    rw [String.toList_append]
    exact decodeChars_append hfirst second.toList
  decode_pair byte := by
    rw [String.toList_ofList, ← List.append_nil (pair byte), decodeChars_pair]
    rfl

end Foundation.Hex
