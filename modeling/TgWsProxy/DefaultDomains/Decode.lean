import TgWsProxy.Foundation.Text

/-!
# The default domain list

The list of Cloudflare domains is published with every name shifted and under another
suffix. When the download gives no usable name, a built-in list takes its place.
-/

namespace TgWsProxy.DefaultDomains

open Foundation

def realSuffix : Text := ".co.uk".toList

/-- The built-in list, in its published form. -/
def fallbackEncoded : List Text :=
  ["virkgj.com".toList, "vmmzovy.com".toList, "mkuosckvso.com".toList, "zaewayzmplad.com".toList,
    "twdmbzcm.com".toList]

/-- A letter of the case that starts at `first`, moved along the alphabet. -/
def shift (first : Nat) (n : Int) (c : Char) : Char :=
  Char.ofNat (((c.toNat : Int) - first + n) % 26 + first).toNat

/-- A letter of either case moved along the alphabet; other characters stay. -/
def rotate (n : Int) (c : Char) : Char :=
  if c.isLower then shift 97 n c else if c.isUpper then shift 65 n c else c

def letters (name : Text) : Int := (name.filter Char.isAlpha).length

/-- The number of letters fits into the integers of the source: a body has at most 256 KiB. -/
def deobfuscate (s : Text) : Option Text :=
  (List.isSuffixOf? ".com".toList s).map fun name =>
    name.map (rotate (-letters name)) ++ realSuffix

def parseDomainList (text : Text) : List Text :=
  ((text.lines.map Text.trim).filter fun line => !line.isEmpty && line.head? != some '#').filterMap
    deobfuscate

def fallbackDomains : List Text := fallbackEncoded.filterMap deobfuscate

/-- The list after a download, which ends in an error or with the body of a response. -/
def fetchDefaultDomains : Except String Text → List Text
  | .ok body =>
      let domains := parseDomainList body
      if domains.isEmpty then fallbackDomains else domains
  | .error _ => fallbackDomains

/-- The built-in list is in the published form. -/
theorem fallbackEncoded_decodes : ∀ encoded ∈ fallbackEncoded, (deobfuscate encoded).isSome := by
  decide

theorem fallbackDomains_ne_nil : fallbackDomains ≠ [] := by
  intro hnone
  have hfirst : (deobfuscate "virkgj.com".toList).isSome :=
    fallbackEncoded_decodes _ List.mem_cons_self
  rw [List.filterMap_eq_nil_iff.mp hnone _ List.mem_cons_self] at hfirst
  cases hfirst

/-- Whatever the server answers, there is a domain to try. -/
theorem fetchDefaultDomains_ne_nil (outcome : Except String Text) :
    fetchDefaultDomains outcome ≠ [] := by
  unfold fetchDefaultDomains
  split
  next body =>
    dsimp only
    split
    next => exact fallbackDomains_ne_nil
    next hdomains => simpa using hdomains
  next => exact fallbackDomains_ne_nil

/-! ## The published form -/

/-- How a name is published: its letters are moved forward by their number, and the suffix
is another one. -/
def obfuscate (name : Text) : Text := name.map (rotate (letters name)) ++ ".com".toList

theorem isLower_iff {c : Char} : c.isLower = true ↔ 97 ≤ c.toNat ∧ c.toNat ≤ 122 := by
  change (decide (97 ≤ c.val) && decide (c.val ≤ 122)) = true ↔ _
  rw [Bool.and_eq_true, decide_eq_true_iff, decide_eq_true_iff]
  rfl

theorem isUpper_iff {c : Char} : c.isUpper = true ↔ 65 ≤ c.toNat ∧ c.toNat ≤ 90 := by
  change decide (65 ≤ c.val ∧ c.val ≤ 90) = true ↔ _
  rw [decide_eq_true_iff]
  rfl

/-- A letter stays in its case. -/
theorem toNat_shift {first : Nat} (hfirst : first ≤ 97) (n : Int) (c : Char) :
    (shift first n c).toNat = (((c.toNat : Int) - first + n) % 26 + first).toNat := by
  have hvalid : (((c.toNat : Int) - first + n) % 26 + first).toNat.isValidChar := by
    left
    omega
  rw [shift, Char.ofNat, dif_pos hvalid]
  rfl

theorem rotate_of_isLower {c : Char} (hc : c.isLower = true) (n : Int) :
    rotate n c = shift 97 n c := if_pos hc

theorem rotate_of_isUpper {c : Char} (hc : c.isUpper = true) (n : Int) :
    rotate n c = shift 65 n c := by
  have hlower : ¬ c.isLower = true := by
    rw [isUpper_iff] at hc
    rw [isLower_iff]
    omega
  rw [rotate, if_neg hlower, if_pos hc]

theorem isLower_shift (n : Int) (c : Char) : (shift 97 n c).isLower = true := by
  rw [isLower_iff, toNat_shift (by decide)]
  omega

theorem isUpper_shift (n : Int) (c : Char) : (shift 65 n c).isUpper = true := by
  rw [isUpper_iff, toNat_shift (by decide)]
  omega

/-- Moving a letter forward and back again. -/
theorem shift_shift {first : Nat} {c : Char} (hfirst : first ≤ 97) (hlow : first ≤ c.toNat)
    (hhigh : c.toNat ≤ first + 25) (n : Int) : shift first (-n) (shift first n c) = c := by
  apply Char.toNat_inj.mp
  rw [toNat_shift hfirst, toNat_shift hfirst]
  omega

theorem rotate_rotate (n : Int) (c : Char) : rotate (-n) (rotate n c) = c := by
  by_cases hlower : c.isLower = true
  · obtain ⟨hlow, hhigh⟩ := isLower_iff.mp hlower
    rw [rotate_of_isLower hlower, rotate_of_isLower (isLower_shift n c)]
    exact shift_shift (by decide) hlow hhigh n
  · by_cases hupper : c.isUpper = true
    · obtain ⟨hlow, hhigh⟩ := isUpper_iff.mp hupper
      rw [rotate_of_isUpper hupper, rotate_of_isUpper (isUpper_shift n c)]
      exact shift_shift (by decide) hlow hhigh n
    · have hother (m : Int) : rotate m c = c := by rw [rotate, if_neg hlower, if_neg hupper]
      rw [hother, hother]

theorem isAlpha_rotate (n : Int) (c : Char) : (rotate n c).isAlpha = c.isAlpha := by
  change ((rotate n c).isUpper || (rotate n c).isLower) = (c.isUpper || c.isLower)
  by_cases hlower : c.isLower = true
  · rw [rotate_of_isLower hlower, isLower_shift, hlower, Bool.or_true, Bool.or_true]
  · by_cases hupper : c.isUpper = true
    · rw [rotate_of_isUpper hupper, isUpper_shift, hupper, Bool.true_or, Bool.true_or]
    · rw [rotate, if_neg hlower, if_neg hupper]

theorem letters_rotate (n : Int) (name : Text) : letters (name.map (rotate n)) = letters name := by
  have hsame : Char.isAlpha ∘ rotate n = Char.isAlpha := funext (isAlpha_rotate n)
  rw [letters, List.filter_map, hsame, List.length_map]
  rfl

/-- A published name is decoded to the name it stands for. -/
theorem deobfuscate_obfuscate (name : Text) :
    deobfuscate (obfuscate name) = some (name ++ realSuffix) := by
  have hname : List.isSuffixOf? ".com".toList (obfuscate name) =
      some (name.map (rotate (letters name))) := List.isSuffixOf?_eq_some_iff_append_eq.mpr rfl
  have hback : rotate (-letters name) ∘ rotate (letters name) = id :=
    funext (rotate_rotate (letters name))
  rw [deobfuscate, hname, Option.map_some, letters_rotate, List.map_map, hback, List.map_id]

end TgWsProxy.DefaultDomains
