import TgWsProxy.Crypto.Primitives

/-!
# Handshakes and connection ciphers

The three functions that produce or read a 64-byte obfuscation packet, and the
four ciphers built from them. Randomness is the sequence of blocks drawn so
far: a generator returns on the first acceptable draw, and has not returned yet
when the draws run out.
-/

namespace TgWsProxy.Crypto

open Foundation.Keystream

/-- Result of a successfully parsed client handshake. -/
structure HandshakeInfo where
  dcId : Nat
  isMedia : Bool
  proto : ProtoTag
  prekeyAndIv : Block 48

/-- Bytes 8..56 of a 64-byte packet. -/
def prekeyAndIv (packet : Block 64) : Block 48 := packet.slice skipLen 48 (by decide)

/-- The first 32 bytes of a prekey/IV block. -/
def prekeyOf (block : Block 48) : Block 32 := block.slice 0 prekeyLen (by decide)

/-- The last 16 bytes of a prekey/IV block. -/
def ivOf (block : Block 48) : Block 16 := block.slice prekeyLen ivLen (by decide)

theorem prekeyOf_prekeyAndIv (packet : Block 64) :
    prekeyOf (prekeyAndIv packet) = packet.slice skipLen prekeyLen (by decide) := by
  apply List.Vector.toList_injective
  simp only [prekeyOf, prekeyAndIv, Block.slice_toList, List.drop_zero, List.take_take]
  rfl

theorem ivOf_prekeyAndIv (packet : Block 64) :
    ivOf (prekeyAndIv packet) = packet.slice (skipLen + prekeyLen) ivLen (by decide) := by
  apply List.Vector.toList_injective
  simp only [ivOf, prekeyAndIv, Block.slice_toList, List.drop_take, List.take_take, List.drop_drop]
  rfl

def parseHandshake (prim : Primitives) (handshake : Block 64) (secret : Bytes) :
    Option HandshakeInfo :=
  let prekey := handshake.slice skipLen prekeyLen (by decide)
  let iv := handshake.slice (skipLen + prekeyLen) ivLen (by decide)
  let key := deriveKey prim prekey secret
  let buf := ((makeCipher key iv).applyKeystream prim.ks handshake.toList).1
  match ProtoTag.fromBytes (buf.extract protoTagPos (protoTagPos + 4)) with
  | none => none
  | some proto =>
      let dcIdx := i16FromLeBytes (buf.getD dcIdxPos 0) (buf.getD (dcIdxPos + 1) 0)
      some
        { dcId := dcIdx.toInt.natAbs
          isMedia := decide (dcIdx.toInt < 0)
          proto
          prekeyAndIv := prekeyAndIv handshake }

/-! ## Reserved prefixes -/

def reservedFirstBytes : List UInt8 := [0xef]

def reservedStarts : List Bytes :=
  [[0x48, 0x45, 0x41, 0x44],
    [0x50, 0x4f, 0x53, 0x54],
    [0x47, 0x45, 0x54, 0x20],
    [0xee, 0xee, 0xee, 0xee],
    [0xdd, 0xdd, 0xdd, 0xdd],
    [0x16, 0x03, 0x01, 0x02]]

def reservedContinue : Bytes := [0x00, 0x00, 0x00, 0x00]

/-- The three tests after which both generators draw again. -/
def hasReservedPrefix (packet : Bytes) : Bool :=
  reservedFirstBytes.contains (packet.getD 0 0) ||
    reservedStarts.any (fun start => packet.extract 0 4 == start) ||
    packet.extract 4 8 == reservedContinue

/-- Only the first eight bytes decide. -/
theorem hasReservedPrefix_congr {left right : Bytes} (heq : left.take 8 = right.take 8) :
    hasReservedPrefix left = hasReservedPrefix right := by
  have hfirst : left.getD 0 0 = right.getD 0 0 := by
    have := congrArg (fun bytes => bytes.getD 0 0) heq
    simpa [List.getD_eq_getElem?_getD, List.getElem?_take] using this
  have hstart : left.extract 0 4 = right.extract 0 4 := by
    have := congrArg (fun bytes => bytes.take 4) heq
    simpa [List.extract_eq_take_drop, List.take_take] using this
  have hcontinue : left.extract 4 8 = right.extract 4 8 := by
    have := congrArg (fun bytes => bytes.drop 4) heq
    simpa [List.extract_eq_take_drop, List.drop_take] using this
  simp only [hasReservedPrefix, hfirst, hstart, hcontinue]

/-- What a packet that passed the three tests does not start with. -/
theorem not_reserved {packet : Bytes} (hfree : hasReservedPrefix packet = false) :
    packet.getD 0 0 ≠ 0xef ∧ packet.take 4 ∉ reservedStarts ∧
      packet.extract 4 8 ≠ [0, 0, 0, 0] := by
  simp only [hasReservedPrefix, reservedFirstBytes, Bool.or_eq_false_iff] at hfree
  obtain ⟨⟨hfirst, hstart⟩, hcontinue⟩ := hfree
  refine ⟨by simpa using hfirst, ?_, by simpa [reservedContinue] using hcontinue⟩
  intro hmem
  have hany : reservedStarts.any (fun start => packet.extract 0 4 == start) = true :=
    List.any_eq_true.mpr ⟨_, hmem, by simp [List.extract_eq_take_drop]⟩
  rw [hany] at hstart
  exact Bool.noConfusion hstart

/-! ## Generators -/

/-- The packet that `generate_relay_init` returns for an accepted draw `rnd`
and the two random padding bytes `pad`. -/
def relayInitFrom (prim : Primitives) (proto : ProtoTag) (dcIdx : Int16)
    (rnd : Block 64) (pad : Block 2) : Block 64 :=
  let encKey := rnd.slice skipLen prekeyLen (by decide)
  let encIv := rnd.slice (skipLen + prekeyLen) ivLen (by decide)
  let encrypted := ((makeCipher encKey encIv).applyKeystream prim.ks rnd.toList).1
  let tailPlain := proto.asBytes ++ i16ToLeBytes dcIdx ++ pad.toList
  -- keystream[56 + i] = encrypted[56 + i] XOR rnd[56 + i]
  let stream := List.zipWith (· ^^^ ·) (encrypted.drop protoTagPos) (rnd.toList.drop protoTagPos)
  ⟨rnd.toList.take protoTagPos ++ List.zipWith (· ^^^ ·) tailPlain stream, by
    simp [tailPlain, stream, encrypted, protoTagPos]⟩

def generateRelayInit (prim : Primitives) (proto : ProtoTag) (dcIdx : Int16)
    (pad : Block 2) : List (Block 64) → Option (Block 64)
  | [] => none
  | rnd :: draws =>
      if hasReservedPrefix rnd.toList then generateRelayInit prim proto dcIdx pad draws
      else some (relayInitFrom prim proto dcIdx rnd pad)

/-- The handshake that `generate_client_handshake` makes of an accepted draw. -/
def clientHandshakeFrom (prim : Primitives) (secret : Bytes) (dcIdx : Int16) (proto : ProtoTag)
    (raw : Block 64) : Block 64 :=
  let key := deriveKey prim (raw.slice skipLen prekeyLen (by decide)) secret
  let iv := raw.slice (skipLen + prekeyLen) ivLen (by decide)
  let keystream := ((makeCipher key iv).applyKeystream prim.ks (List.replicate handshakeLen 0)).1
  ⟨raw.toList.take protoTagPos ++
      List.zipWith (· ^^^ ·) proto.asBytes (keystream.extract protoTagPos (protoTagPos + 4)) ++
      List.zipWith (· ^^^ ·) (i16ToLeBytes dcIdx) (keystream.extract dcIdxPos (dcIdxPos + 2)) ++
      raw.toList.drop (dcIdxPos + 2), by
    simp [keystream, protoTagPos, dcIdxPos, handshakeLen, List.extract_eq_take_drop]⟩

/-- Handshake, encryptor and decryptor for a session with an upstream proxy. -/
def generateClientHandshake (prim : Primitives) (secret : Bytes) (dcIdx : Int16)
    (proto : ProtoTag) : List (Block 64) → Option (Block 64 × AesCtr256 × AesCtr256)
  | [] => none
  | raw :: draws =>
      if hasReservedPrefix raw.toList then
        generateClientHandshake prim secret dcIdx proto draws
      else
        let handshake := clientHandshakeFrom prim secret dcIdx proto raw
        let encKey := deriveKey prim (handshake.slice skipLen prekeyLen (by decide)) secret
        let encIv := handshake.slice (skipLen + prekeyLen) ivLen (by decide)
        let dummy := List.replicate handshakeLen 0
        let enc := ((makeCipher encKey encIv).applyKeystream prim.ks dummy).2
        let reversed := (prekeyAndIv handshake).reversed
        let decKey := deriveKey prim (prekeyOf reversed) secret
        let dec := makeCipher decKey (ivOf reversed)
        some (handshake, enc, dec)

/-! ## Connection ciphers -/

/-- All four ciphers of one proxied connection. -/
structure ConnectionCiphers where
  cltDec : AesCtr256
  cltEnc : AesCtr256
  tgEnc : AesCtr256
  tgDec : AesCtr256

def buildConnectionCiphers (prim : Primitives) (block : Block 48) (secret : Bytes)
    (relayInit : Block 64) : ConnectionCiphers :=
  let cltDecKey := deriveKey prim (prekeyOf block) secret
  let reversed := block.reversed
  let cltEncKey := deriveKey prim (prekeyOf reversed) secret
  let dummy := List.replicate handshakeLen 0
  -- Both forwarding calls go through the same dummy buffer; only its length matters.
  let cltDec := ((makeCipher cltDecKey (ivOf block)).applyKeystream prim.ks dummy).2
  let cltEnc := makeCipher cltEncKey (ivOf reversed)
  let relayEncKey := relayInit.slice skipLen prekeyLen (by decide)
  let relayEncIv := relayInit.slice (skipLen + prekeyLen) ivLen (by decide)
  let relayRev := (prekeyAndIv relayInit).reversed
  let tgEnc := ((makeCipher relayEncKey relayEncIv).applyKeystream prim.ks dummy).2
  let tgDec := makeCipher (prekeyOf relayRev) (ivOf relayRev)
  { cltDec, cltEnc, tgEnc, tgDec }

end TgWsProxy.Crypto
