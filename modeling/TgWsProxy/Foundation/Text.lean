import Mathlib.Data.List.DropRight
import Mathlib.Data.List.Induction

/-!
# Text

Strings as lists of Unicode scalar values, with the operations on them that a standard
library for UTF-8 strings has.
-/

namespace Foundation

abbrev Text := List Char

namespace Text

/-! ## White space -/

/-- The Unicode property `White_Space`. -/
def isWhitespace (c : Char) : Bool :=
  let code := c.toNat
  (9 ≤ code && code ≤ 13) || code == 0x20 || code == 0x85 || code == 0xA0 || code == 0x1680 ||
    (0x2000 ≤ code && code ≤ 0x200A) || code == 0x2028 || code == 0x2029 || code == 0x202F ||
    code == 0x205F || code == 0x3000

/-- Nothing but white space. -/
def Blank (text : Text) : Prop := ∀ c ∈ text, isWhitespace c = true

instance : DecidablePred Blank :=
  fun text => List.decidableBAll (fun c => isWhitespace c = true) text

def trimStart (text : Text) : Text := text.dropWhile isWhitespace

def trimEnd (text : Text) : Text := text.rdropWhile isWhitespace

def trim (text : Text) : Text := trimEnd (trimStart text)

theorem blank_takeWhile (text : Text) : Blank (text.takeWhile isWhitespace) :=
  fun _ hmem => List.mem_takeWhile_imp hmem

theorem exists_trimStart (text : Text) : ∃ lead, Blank lead ∧ text = lead ++ trimStart text :=
  ⟨_, blank_takeWhile text, List.takeWhile_append_dropWhile.symm⟩

theorem exists_trimEnd (text : Text) : ∃ trail, Blank trail ∧ text = trimEnd text ++ trail := by
  refine ⟨text.rtakeWhile isWhitespace, ?_, List.rdropWhile_append_rtakeWhile.symm⟩
  intro c hmem
  exact List.mem_rtakeWhile_imp hmem

/-- What trimming takes away. -/
theorem exists_trim (text : Text) :
    ∃ lead trail, Blank lead ∧ Blank trail ∧ text = lead ++ (trim text ++ trail) := by
  obtain ⟨lead, hlead, htext⟩ := exists_trimStart text
  obtain ⟨trail, htrail, hrest⟩ := exists_trimEnd (trimStart text)
  refine ⟨lead, trail, hlead, htrail, ?_⟩
  rw [trim, ← hrest, ← htext]

theorem trimEnd_concat_of_ne {text : Text} {c : Char} (hc : isWhitespace c = false) :
    trimEnd (text ++ [c]) = text ++ [c] :=
  List.rdropWhile_concat_neg _ _ _ (by simp [hc])

theorem trimEnd_append_ne {text trail : Text} (htrail : Blank trail) (hne : trail ≠ []) :
    trimEnd (text ++ trail) ≠ text ++ trail := by
  cases trail using List.reverseRecOn with
  | nil => exact (hne rfl).elim
  | append_singleton trail c =>
      have hspace : isWhitespace c = true := htrail c (by simp)
      have hlength := (List.rdropWhile_prefix isWhitespace (text ++ trail)).length_le
      rw [← List.append_assoc, trimEnd, List.rdropWhile_concat_pos _ _ _ hspace]
      intro heq
      rw [heq, List.length_append, List.length_singleton] at hlength
      omega

/-! ## Bytes and offsets

An offset into a text counts the bytes of its UTF-8 encoding, and a text can only be cut
between two characters. -/

def bytes (text : Text) : List UInt8 := text.flatMap String.utf8EncodeChar

def byteLength : Text → Nat
  | [] => 0
  | c :: text => c.utf8Size + byteLength text

/-- The text with the given encoding. -/
def fromUtf8 (bytes : List UInt8) : Option Text :=
  (String.fromUTF8? ⟨bytes.toArray⟩).map String.toList

/-- The two halves of a text, if the offset is between two characters. -/
def splitAtByte : Text → Nat → Option (Text × Text)
  | text, 0 => some ([], text)
  | [], _ + 1 => none
  | c :: text, offset + 1 =>
      if c.utf8Size ≤ offset + 1 then
        (splitAtByte text (offset + 1 - c.utf8Size)).map fun halves => (c :: halves.1, halves.2)
      else none

/-- The text between two offsets. -/
def slice (text : Text) (start stop : Nat) : Option Text := do
  let (front, _) ← splitAtByte text stop
  let (_, middle) ← splitAtByte front start
  pure middle

theorem byteLength_append (left right : Text) :
    byteLength (left ++ right) = byteLength left + byteLength right := by
  induction left with
  | nil => simp [byteLength]
  | cons c left ih => simp [byteLength, ih, Nat.add_assoc]

theorem length_bytes (text : Text) : (bytes text).length = byteLength text := by
  induction text with
  | nil => rfl
  | cons c text ih =>
      simp only [bytes, List.flatMap_cons, List.length_append, String.length_utf8EncodeChar]
      exact congrArg _ ih

/-- Decoding is the inverse of encoding. -/
theorem fromUtf8_eq_some_iff {encoded : List UInt8} {text : Text} :
    fromUtf8 encoded = some text ↔ bytes text = encoded := by
  have hencode : text.utf8Encode = ⟨(bytes text).toArray⟩ := ByteArray.ext List.data_toByteArray
  unfold fromUtf8 String.fromUTF8?
  constructor
  · intro hdecoded
    split at hdecoded
    next hvalid =>
      cases hdecoded
      rw [String.utf8Encode_toList] at hencode
      exact (List.toArray_inj (congrArg ByteArray.data hencode)).symm
    next => cases hdecoded
  · rintro rfl
    have hvalid : ByteArray.IsValidUTF8 ⟨(bytes text).toArray⟩ :=
      hencode ▸ ByteArray.isValidUTF8_utf8Encode
    have hsame : String.fromUTF8 _ hvalid = String.ofList text := by
      apply String.toByteArray_inj.mp
      rw [String.toByteArray_ofList, hencode]
      rfl
    rw [dif_pos hvalid, hsame, Option.map_some, String.toList_ofList]

theorem splitAtByte_append (left right : Text) :
    splitAtByte (left ++ right) (byteLength left) = some (left, right) := by
  induction left with
  | nil => cases right <;> rfl
  | cons c left ih =>
      obtain ⟨size, hsize⟩ : ∃ size, c.utf8Size = size + 1 :=
        ⟨c.utf8Size - 1, by have := c.utf8Size_pos; omega⟩
      have hoffset : byteLength (c :: left) = size + byteLength left + 1 := by
        rw [byteLength, hsize]
        omega
      have hrest : size + byteLength left + 1 - c.utf8Size = byteLength left := by omega
      rw [hoffset, List.cons_append, splitAtByte, if_pos (by omega), hrest, ih]
      rfl

/-- The bytes of a character outside of ASCII are all outside of ASCII. -/
theorem utf8EncodeChar_high {c : Char} (hc : 128 ≤ c.toNat) :
    ∀ byte ∈ String.utf8EncodeChar c, 128 ≤ byte.toNat := by
  have hc : 128 ≤ c.val.toNat := hc
  intro byte hmem
  unfold String.utf8EncodeChar at hmem
  simp only at hmem
  split_ifs at hmem with hone htwo hthree
  · omega
  all_goals
    simp only [List.mem_cons, List.not_mem_nil, or_false] at hmem
    rcases hmem with rfl | rfl | rfl | rfl <;> simp only [UInt8.toNat_ofNat'] <;> omega

theorem utf8Size_of_lt {c : Char} (hc : c.toNat < 128) : c.utf8Size = 1 := by
  have hlow : c.val.toNat ≤ 127 := Nat.lt_succ_iff.mp hc
  rw [← String.length_utf8EncodeChar]
  simp only [String.utf8EncodeChar, if_pos hlow, List.length_singleton]

theorem eq_of_mem_utf8EncodeChar {c other : Char} (hc : c.toNat < 128)
    (hmem : UInt8.ofNat c.toNat ∈ String.utf8EncodeChar other) : other = c := by
  have hbyte : (UInt8.ofNat c.toNat).toNat = c.toNat := by
    rw [UInt8.toNat_ofNat']
    omega
  by_cases hother : 128 ≤ other.toNat
  · have hhigh := utf8EncodeChar_high hother _ hmem
    omega
  · have hlow : other.val.toNat ≤ 127 := Nat.lt_succ_iff.mp (Nat.lt_of_not_le hother)
    simp only [String.utf8EncodeChar, hlow, if_true, List.mem_singleton] at hmem
    have hsame : c.toNat = (UInt8.ofNat other.val.toNat).toNat := by rw [← hmem, hbyte]
    rw [UInt8.toNat_ofNat', Nat.mod_eq_of_lt (by omega)] at hsame
    exact Char.toNat_inj.mp hsame.symm

/-- An ASCII character in the bytes is one in the text. -/
theorem exists_of_bytes_getElem? {text : Text} {offset : Nat} {c : Char} (hc : c.toNat < 128)
    (hbyte : (bytes text)[offset]? = some (UInt8.ofNat c.toNat)) :
    ∃ before after, text = before ++ c :: after ∧ offset = byteLength before := by
  induction text generalizing offset with
  | nil => simp [bytes] at hbyte
  | cons first text ih =>
      have hcons : bytes (first :: text) = String.utf8EncodeChar first ++ bytes text := rfl
      have hsize := String.length_utf8EncodeChar first
      rw [hcons] at hbyte
      by_cases hoffset : offset < first.utf8Size
      · rw [List.getElem?_append_left (by omega)] at hbyte
        obtain rfl := eq_of_mem_utf8EncodeChar hc (List.mem_of_getElem? hbyte)
        rw [utf8Size_of_lt hc] at hoffset
        obtain rfl : offset = 0 := by omega
        exact ⟨[], text, rfl, rfl⟩
      · rw [List.getElem?_append_right (by omega), hsize] at hbyte
        obtain ⟨before, after, rfl, hbefore⟩ := ih hbyte
        exact ⟨first :: before, after, rfl, by rw [byteLength]; omega⟩

theorem bytes_getElem?_append_cons {c : Char} (hc : c.toNat < 128) (before after : Text) :
    (bytes (before ++ c :: after))[byteLength before]? = some (UInt8.ofNat c.toNat) := by
  have hlow : c.val.toNat ≤ 127 := Nat.lt_succ_iff.mp hc
  have hencode : String.utf8EncodeChar c = [UInt8.ofNat c.toNat] := by
    simp only [String.utf8EncodeChar, if_pos hlow]
    rfl
  have hbytes : bytes (before ++ c :: after) =
      bytes before ++ UInt8.ofNat c.toNat :: bytes after := by
    simp [bytes, List.flatMap_append, List.flatMap_cons, hencode]
  rw [hbytes, List.getElem?_append_right (by rw [length_bytes]), length_bytes, Nat.sub_self]
  rfl

/-- A text can be cut behind an ASCII character. -/
theorem splitAtByte_append_cons {c : Char} (hc : c.toNat < 128) (before after : Text) :
    splitAtByte (before ++ c :: after) (byteLength before + 1) = some (before ++ [c], after) := by
  have hlength : byteLength (before ++ [c]) = byteLength before + 1 := by
    rw [byteLength_append, byteLength, utf8Size_of_lt hc]
    rfl
  rw [List.append_cons, ← hlength]
  exact splitAtByte_append _ _

/-! ## Searching -/

/-- The offset of the first occurrence. -/
def find (c : Char) : Text → Option Nat
  | [] => none
  | first :: text =>
      if first = c then some 0 else (find c text).map fun offset => first.utf8Size + offset

/-- The parts around the last occurrence. -/
def rsplitOnce (c : Char) : Text → Option (Text × Text)
  | [] => none
  | first :: text =>
      match rsplitOnce c text with
      | some (before, after) => some (first :: before, after)
      | none => if first = c then some ([], text) else none

section Search

variable {c : Char} {text : Text}

theorem find_eq_none_iff : find c text = none ↔ c ∉ text := by
  induction text with
  | nil => simp [find]
  | cons first text ih =>
      by_cases hfirst : first = c
      · simp [find, hfirst]
      · simp [find, hfirst, ih, Ne.symm hfirst]

theorem find_append_cons {before after : Text} (hbefore : c ∉ before) :
    find c (before ++ c :: after) = some (byteLength before) := by
  induction before with
  | nil => exact if_pos rfl
  | cons first before ih =>
      rw [List.mem_cons, not_or] at hbefore
      rw [List.cons_append, find, if_neg (Ne.symm hbefore.1), ih hbefore.2]
      rfl

theorem find_eq_some {offset : Nat} (hfind : find c text = some offset) :
    ∃ before after, text = before ++ c :: after ∧ c ∉ before ∧ offset = byteLength before := by
  induction text generalizing offset with
  | nil => cases hfind
  | cons first text ih =>
      by_cases hfirst : first = c
      · rw [find, if_pos hfirst] at hfind
        cases hfind
        exact ⟨[], text, by rw [hfirst]; rfl, List.not_mem_nil, rfl⟩
      · rw [find, if_neg hfirst] at hfind
        obtain ⟨rest, hrest, rfl⟩ := Option.map_eq_some_iff.mp hfind
        obtain ⟨before, after, rfl, hbefore, rfl⟩ := ih hrest
        refine ⟨first :: before, after, rfl, ?_, rfl⟩
        simp [hbefore, Ne.symm hfirst]

theorem rsplitOnce_eq_none_iff : rsplitOnce c text = none ↔ c ∉ text := by
  induction text with
  | nil => simp [rsplitOnce]
  | cons first text ih =>
      rw [rsplitOnce]
      cases hrest : rsplitOnce c text with
      | none =>
          by_cases hfirst : first = c
          · simp [hfirst]
          · simp [hfirst, Ne.symm hfirst, ih.mp hrest]
      | some parts =>
          have hmem : c ∈ text := by
            by_contra hnot
            cases hrest.symm.trans (ih.mpr hnot)
          simp [hmem]

theorem rsplitOnce_append_cons {before after : Text} (hafter : c ∉ after) :
    rsplitOnce c (before ++ c :: after) = some (before, after) := by
  induction before with
  | nil =>
      rw [List.nil_append, rsplitOnce, rsplitOnce_eq_none_iff.mpr hafter]
      exact if_pos rfl
  | cons first before ih => rw [List.cons_append, rsplitOnce, ih]

theorem rsplitOnce_eq_some {before after : Text}
    (hsplit : rsplitOnce c text = some (before, after)) :
    text = before ++ c :: after ∧ c ∉ after := by
  induction text generalizing before with
  | nil => cases hsplit
  | cons first text ih =>
      rw [rsplitOnce] at hsplit
      cases hrest : rsplitOnce c text with
      | none =>
          rw [hrest] at hsplit
          by_cases hfirst : first = c
          · simp only [if_pos hfirst] at hsplit
            cases hsplit
            exact ⟨by rw [hfirst]; rfl, rsplitOnce_eq_none_iff.mp hrest⟩
          · simp only [if_neg hfirst] at hsplit
            cases hsplit
      | some parts =>
          obtain ⟨front, back⟩ := parts
          rw [hrest] at hsplit
          cases hsplit
          obtain ⟨htext, hafter⟩ := ih hrest
          exact ⟨by rw [htext]; rfl, hafter⟩

/-- A text has one first occurrence. -/
theorem append_cons_inj {before after front back : Text} (hbefore : c ∉ before)
    (hfront : c ∉ front) (heq : before ++ c :: after = front ++ c :: back) :
    before = front ∧ after = back := by
  induction before generalizing front with
  | nil =>
      cases front with
      | nil => exact ⟨rfl, (List.cons.inj heq).2⟩
      | cons first front =>
          exact (hfront (by rw [(List.cons.inj heq).1]; exact List.mem_cons_self)).elim
  | cons first before ih =>
      cases front with
      | nil =>
          exact (hbefore (by rw [← (List.cons.inj heq).1]; exact List.mem_cons_self)).elim
      | cons other front =>
          obtain ⟨hfirst, hrest⟩ := List.cons.inj heq
          rw [List.mem_cons, not_or] at hbefore hfront
          obtain ⟨hsame, hafter⟩ := ih hbefore.2 hfront.2 hrest
          exact ⟨by rw [hfirst, hsame], hafter⟩

end Search

/-! ## Lines -/

/-- The pieces up to and including each occurrence, and what follows the last one. -/
def splitInclusive (c : Char) : Text → List Text
  | [] => []
  | first :: text =>
      if first = c then [c] :: splitInclusive c text
      else match splitInclusive c text with
        | [] => [[first]]
        | piece :: pieces => (first :: piece) :: pieces

/-- A line without its end, which is a line feed or a carriage return and a line feed. -/
def stripLineEnd (line : Text) : Text :=
  match List.isSuffixOf? ['\n'] line with
  | some line => (List.isSuffixOf? ['\r'] line).getD line
  | none => line

def lines (text : Text) : List Text := (splitInclusive '\n' text).map stripLineEnd

/-- The pieces between white space. -/
def splitWhitespace (text : Text) : List Text :=
  (text.splitOnP isWhitespace).filter fun piece => !piece.isEmpty

/-! ## ASCII case -/

def eqIgnoreAsciiCase (left right : Text) : Bool :=
  left.map Char.toLower == right.map Char.toLower

theorem utf8Size_toLower (c : Char) : c.toLower.utf8Size = c.utf8Size := by
  unfold Char.toLower
  split
  next hupper =>
    obtain ⟨hlower, hupper⟩ := hupper
    have hvalue : c.val.toNat ≤ 90 := UInt32.le_iff_toNat_le.mp hupper
    have hsum : (c.val + ('a'.val - 'A'.val)).toNat < 128 := by
      have hshift : ('a'.val - 'A'.val).toNat = 32 := rfl
      rw [UInt32.toNat_add]
      omega
    have hc : c.toNat < 128 := Nat.lt_of_le_of_lt hvalue (by decide)
    rw [utf8Size_of_lt hc]
    exact utf8Size_of_lt hsum
  next => rfl

theorem byteLength_of_eqIgnoreAsciiCase {left right : Text}
    (heq : eqIgnoreAsciiCase left right = true) : byteLength left = byteLength right := by
  have hlower (text : Text) : byteLength (text.map Char.toLower) = byteLength text := by
    induction text with
    | nil => rfl
    | cons c text ih => simp [byteLength, ih, utf8Size_toLower]
  rw [← hlower left, eq_of_beq heq, hlower right]

/-! ## Numbers -/

def toDigit (radix : Nat) (c : Char) : Option Nat :=
  let digit :=
    if '0' ≤ c ∧ c ≤ '9' then some (c.toNat - '0'.toNat)
    else if 'a' ≤ c ∧ c ≤ 'z' then some (c.toNat - 'a'.toNat + 10)
    else if 'A' ≤ c ∧ c ≤ 'Z' then some (c.toNat - 'A'.toNat + 10)
    else none
  digit.filter fun value => decide (value < radix)

/-- The digits of an unsigned number, with every multiplication and addition checked. -/
def parseDigits (radix max : Nat) : Nat → Text → Option Nat
  | value, [] => some value
  | value, c :: text => do
      let digit ← toDigit radix c
      if value * radix + digit ≤ max then parseDigits radix max (value * radix + digit) text
      else none

/-- The value of digits, without a bound. -/
def digitsValue (radix : Nat) : Nat → Text → Option Nat
  | value, [] => some value
  | value, c :: text => do
      let digit ← toDigit radix c
      digitsValue radix (value * radix + digit) text

/-- An unsigned number of at most `max`, with an optional plus sign. -/
def parseUnsigned (radix max : Nat) : Text → Option Nat
  | [] | ['+'] => none
  | '+' :: text => parseDigits radix max 0 text
  | text => parseDigits radix max 0 text

theorem letter_of_toDigit {radix digit : Nat} {c : Char} (hdigit : toDigit radix c = some digit) :
    (48 ≤ c.toNat ∧ c.toNat ≤ 57) ∨ (65 ≤ c.toNat ∧ c.toNat ≤ 90) ∨
      (97 ≤ c.toNat ∧ c.toNat ≤ 122) := by
  unfold toDigit at hdigit
  split_ifs at hdigit with hnumber hlower hupper
  · exact .inl hnumber
  · exact .inr (.inr hlower)
  · exact .inr (.inl hupper)
  · cases hdigit

section Digits

variable {radix value result max : Nat} {digits : Text}

theorem digitsValue_cons {c : Char} (hvalue : digitsValue radix value (c :: digits) = some result) :
    ∃ digit, toDigit radix c = some digit ∧
      digitsValue radix (value * radix + digit) digits = some result :=
  Option.bind_eq_some_iff.mp hvalue

theorem exists_toDigit_of_digitsValue (hvalue : digitsValue radix value digits = some result) :
    ∀ c ∈ digits, ∃ digit, toDigit radix c = some digit := by
  induction digits generalizing value with
  | nil => exact fun _ hmem => absurd hmem List.not_mem_nil
  | cons c digits ih =>
      obtain ⟨digit, hdigit, hrest⟩ := digitsValue_cons hvalue
      exact List.forall_mem_cons.mpr ⟨⟨digit, hdigit⟩, ih hrest⟩

theorem le_of_digitsValue (hradix : 0 < radix)
    (hvalue : digitsValue radix value digits = some result) : value ≤ result := by
  induction digits generalizing value with
  | nil => exact (Option.some.inj hvalue).le
  | cons c digits ih =>
      obtain ⟨digit, _, hrest⟩ := digitsValue_cons hvalue
      calc value ≤ value * radix := Nat.le_mul_of_pos_right value hradix
        _ ≤ value * radix + digit := Nat.le_add_right _ _
        _ ≤ result := ih hrest

/-- Digits are read if their value is in range: the values on the way are smaller. -/
theorem parseDigits_of_digitsValue (hradix : 0 < radix) (hmax : result ≤ max)
    (hvalue : digitsValue radix value digits = some result) :
    parseDigits radix max value digits = some result := by
  induction digits generalizing value with
  | nil => exact hvalue
  | cons c digits ih =>
      obtain ⟨digit, hdigit, hrest⟩ := digitsValue_cons hvalue
      have hle := (le_of_digitsValue hradix hrest).trans hmax
      rw [parseDigits, hdigit, Option.bind_eq_bind, Option.bind_some, if_pos hle]
      exact ih hrest

theorem parseUnsigned_of_digitsValue (hradix : 0 < radix) (hmax : result ≤ max)
    (hdigits : digits ≠ []) (hvalue : digitsValue radix 0 digits = some result) :
    parseUnsigned radix max digits = some result := by
  cases digits with
  | nil => exact (hdigits rfl).elim
  | cons c digits =>
      have hplus : c ≠ '+' := by
        rintro rfl
        obtain ⟨digit, hdigit, _⟩ := digitsValue_cons hvalue
        have hletter := letter_of_toDigit hdigit
        have hcode : '+'.toNat = 43 := rfl
        omega
      rw [parseUnsigned]
      · exact parseDigits_of_digitsValue hradix hmax hvalue
      · intro hnil
        cases hnil
      · intro hsign
        exact hplus (List.cons.inj hsign).1
      · intro text hsign
        exact hplus (List.cons.inj hsign).1

theorem trim_of_digitsValue (hvalue : digitsValue radix value digits = some result) :
    trim digits = digits := by
  have hspace : ∀ c ∈ digits, isWhitespace c = false := by
    intro c hmem
    obtain ⟨digit, hdigit⟩ := exists_toDigit_of_digitsValue hvalue c hmem
    have hletter := letter_of_toDigit hdigit
    simp only [isWhitespace, Bool.or_eq_false_iff, Bool.and_eq_false_iff, decide_eq_false_iff_not,
      beq_eq_false_iff_ne]
    omega
  have hstart : trimStart digits = digits := by
    apply List.dropWhile_eq_self_iff.mpr
    intro hlength
    simp [hspace _ (List.getElem_mem hlength)]
  rw [trim, hstart]
  apply List.rdropWhile_eq_self_iff.mpr
  intro hne
  simp [hspace _ (List.getLast_mem hne)]

theorem parseDigits_le (hvalue : value ≤ max)
    (hparse : parseDigits radix max value digits = some result) : result ≤ max := by
  induction digits generalizing value with
  | nil => exact Option.some.inj hparse ▸ hvalue
  | cons c digits ih =>
      obtain ⟨digit, -, hrest⟩ := Option.bind_eq_some_iff.mp hparse
      split at hrest
      next hle => exact ih hle hrest
      next => cases hrest

theorem parseUnsigned_le (hparse : parseUnsigned radix max digits = some result) :
    result ≤ max := by
  unfold parseUnsigned at hparse
  split at hparse
  · cases hparse
  · cases hparse
  · exact parseDigits_le (Nat.zero_le max) hparse
  · exact parseDigits_le (Nat.zero_le max) hparse

/-- Decimal digits have the value that they have as a number. -/
theorem digitsValue_of_isDigit (hdigits : ∀ c ∈ digits, c.isDigit = true) :
    digitsValue 10 value digits = some (Nat.ofDigitChars 10 digits value) := by
  induction digits generalizing value with
  | nil => rfl
  | cons c digits ih =>
      obtain ⟨hc, hdigits⟩ := List.forall_mem_cons.mp hdigits
      obtain ⟨hlow, hhigh⟩ := Bool.and_eq_true_iff.mp hc
      have hrange : '0' ≤ c ∧ c ≤ '9' := ⟨of_decide_eq_true hlow, of_decide_eq_true hhigh⟩
      have hle : c.toNat ≤ 57 := hrange.2
      have hlt : c.toNat - '0'.toNat < 10 := by
        have hzero : '0'.toNat = 48 := rfl
        omega
      have hdigit : toDigit 10 c = some (c.toNat - '0'.toNat) := by
        rw [toDigit, if_pos hrange]
        exact Option.filter_some_pos (decide_eq_true hlt)
      rw [digitsValue, hdigit, Option.bind_eq_bind, Option.bind_some, ih hdigits,
        Nat.ofDigitChars_cons, Nat.mul_comm value]

/-- A number in range is read back from its decimal text. -/
theorem parseUnsigned_toDigits {number : Nat} (hmax : number ≤ max) :
    parseUnsigned 10 max (Nat.toDigits 10 number) = some number := by
  refine parseUnsigned_of_digitsValue (by decide) hmax Nat.toDigits_ne_nil ?_
  rw [digitsValue_of_isDigit fun c hmem => Nat.isDigit_of_mem_toDigits (by decide) (by decide) hmem,
    Nat.ofDigitChars_ten_toDigits]

end Digits

end Text

end Foundation
