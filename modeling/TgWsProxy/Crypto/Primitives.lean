import Mathlib.Data.Vector.Basic
import TgWsProxy.Foundation.Keystream

/-!
# Primitives of the obfuscation layer

AES-256-CTR and SHA-256 enter as parameters: a keystream that depends on key,
IV and byte position, and an arbitrary 32-byte digest. The fixed-size arrays of
the source are lists that carry their length, so that a key of the wrong size
cannot reach `makeCipher`.
-/

namespace TgWsProxy.Crypto

open Foundation.Keystream

abbrev Bytes := List UInt8

/-- A fixed-size byte array `[u8; n]`. -/
abbrev Block (n : Nat) := List.Vector UInt8 n

namespace Block

/-- The `len` bytes of a block from index `start` on. -/
def slice {n : Nat} (block : Block n) (start len : Nat) (hbound : start + len ≤ n) : Block len :=
  ⟨(block.toList.drop start).take len, by
    simp only [List.length_take, List.length_drop, List.Vector.toList_length]
    omega⟩

@[simp] theorem slice_toList {n : Nat} (block : Block n) (start len : Nat)
    (hbound : start + len ≤ n) :
    (block.slice start len hbound).toList = (block.toList.drop start).take len := rfl

/-- The bytes of a block in the opposite order. -/
def reversed {n : Nat} (block : Block n) : Block n :=
  ⟨block.toList.reverse, by simp⟩

end Block

/-! ## Constants -/

abbrev handshakeLen : Nat := 64
abbrev skipLen : Nat := 8
abbrev prekeyLen : Nat := 32
abbrev ivLen : Nat := 16
abbrev protoTagPos : Nat := 56
abbrev dcIdxPos : Nat := 60

theorem prekey_le_packet : skipLen + prekeyLen ≤ 64 := by decide

theorem iv_le_packet : skipLen + prekeyLen + ivLen ≤ 64 := by decide

def protoTagAbridged : Bytes := [0xef, 0xef, 0xef, 0xef]
def protoTagIntermediate : Bytes := [0xee, 0xee, 0xee, 0xee]
def protoTagSecure : Bytes := [0xdd, 0xdd, 0xdd, 0xdd]

/-- The MTProto transports a client can ask for. -/
inductive ProtoTag
  | abridged
  | intermediate
  | paddedIntermediate
  deriving DecidableEq, Repr

namespace ProtoTag

def fromBytes (bytes : Bytes) : Option ProtoTag :=
  if bytes = protoTagAbridged then some .abridged
  else if bytes = protoTagIntermediate then some .intermediate
  else if bytes = protoTagSecure then some .paddedIntermediate
  else none

def asBytes : ProtoTag → Bytes
  | .abridged => protoTagAbridged
  | .intermediate => protoTagIntermediate
  | .paddedIntermediate => protoTagSecure

@[simp] theorem asBytes_length (proto : ProtoTag) : proto.asBytes.length = 4 := by
  cases proto <;> rfl

@[simp] theorem fromBytes_asBytes (proto : ProtoTag) : fromBytes proto.asBytes = some proto := by
  cases proto <;> rfl

end ProtoTag

/-! ## Ciphers -/

/-- The two primitives the obfuscation layer is built on. -/
structure Primitives where
  keystream : Block 32 → Block 16 → Nat → UInt8
  sha256 : Bytes → Block 32

/-- Key and IV of one AES-256-CTR instance. -/
abbrev Seed := Block 32 × Block 16

/-- An AES-256-CTR cipher: key, IV and the next keystream position. -/
abbrev AesCtr256 := Cipher Seed

/-- The keystream byte at a position under a key and IV. -/
def Primitives.ks (prim : Primitives) (seed : Seed) : Nat → UInt8 :=
  prim.keystream seed.1 seed.2

def makeCipher (key : Block 32) (iv : Block 16) : AesCtr256 := ⟨(key, iv), 0⟩

/-- `SHA-256(prekey ∥ secret)`. -/
def deriveKey (prim : Primitives) (prekey : Block 32) (secret : Bytes) : Block 32 :=
  prim.sha256 (prekey.toList ++ secret)

/-! ## Proxy secret layout -/

def secretModePrefixLen : Nat := 1
def secretKeyLen : Nat := 16
def prefixedSecretLen : Nat := secretModePrefixLen + secretKeyLen
def secretModeFaketls : UInt8 := 0xee
def secretModePadded : UInt8 := 0xdd

def hasModePrefix (raw : Bytes) : Bool :=
  decide (prefixedSecretLen ≤ raw.length) &&
    (raw.head? == some secretModePadded || raw.head? == some secretModeFaketls)

/-- The cryptographic key carried by a proxy secret. -/
def secretKey (raw : Bytes) : Bytes :=
  if hasModePrefix raw then raw.extract secretModePrefixLen prefixedSecretLen else raw

/-- The FakeTLS SNI hostname carried by an `ee` secret. -/
def faketlsHostname (raw : Bytes) : Option Bytes :=
  if prefixedSecretLen < raw.length ∧ raw.head? = some secretModeFaketls then
    some (raw.drop prefixedSecretLen)
  else none

/-! ## Signed 16-bit indices on the wire -/

/-- `i16::to_le_bytes`. -/
def i16ToLeBytes (value : Int16) : Bytes :=
  [UInt8.ofBitVec (value.toBitVec.extractLsb' 0 8),
    UInt8.ofBitVec (value.toBitVec.extractLsb' 8 8)]

/-- `i16::from_le_bytes`. -/
def i16FromLeBytes (low high : UInt8) : Int16 :=
  Int16.ofBitVec (high.toBitVec ++ low.toBitVec)

@[simp] theorem i16ToLeBytes_length (value : Int16) : (i16ToLeBytes value).length = 2 := rfl

theorem i16FromLeBytes_i16ToLeBytes (value : Int16) :
    i16FromLeBytes ((i16ToLeBytes value).getD 0 0) ((i16ToLeBytes value).getD 1 0) = value := by
  have hbits : value.toBitVec.extractLsb' 8 8 ++ value.toBitVec.extractLsb' 0 8 =
      value.toBitVec := by
    apply BitVec.eq_of_getLsbD_eq
    intro i hi
    simp only [BitVec.getLsbD_append, BitVec.getLsbD_extractLsb']
    by_cases hlow : i < 8
    · simp [hlow]
    · have hsum : 8 + (i - 8) = i := by omega
      have hrest : i - 8 < 8 := by omega
      simp [hlow, hsum, hrest]
  change Int16.ofBitVec (value.toBitVec.extractLsb' 8 8 ++ value.toBitVec.extractLsb' 0 8) = value
  rw [hbits]
  rfl

end TgWsProxy.Crypto
