import TgWsProxy.Crypto.Handshake

/-!
# The client handshake and the server side agree

`generate_client_handshake` hides the protocol tag and the DC index in bytes
56..62 by XOR with the keystream of the very packet it patches. The patch never
touches bytes 0..56, so the key, the IV and the reserved-prefix verdict are the
same before and after it, and a server that reads the packet back arrives at
the same tag, index and cipher states.
-/

namespace TgWsProxy.Crypto

open Foundation.Keystream

/-- The cipher a packet is read with: key hashed from its prekey, raw IV. -/
def handshakeCipher (prim : Primitives) (packet : Block 64) (secret : Bytes) : AesCtr256 :=
  makeCipher (deriveKey prim (packet.slice skipLen prekeyLen prekey_le_packet) secret)
    (packet.slice (skipLen + prekeyLen) ivLen iv_le_packet)

theorem slice_congr {n : Nat} {left right : Block n} (start len : Nat) (hbound : start + len ≤ n)
    (heq : left.toList.take (start + len) = right.toList.take (start + len)) :
    left.slice start len hbound = right.slice start len hbound := by
  apply List.Vector.toList_injective
  simp only [Block.slice_toList]
  have hdrop := congrArg (fun bytes => bytes.drop start) heq
  simpa [List.drop_take] using hdrop

/-- Packets with the same first 56 bytes are read with the same cipher. -/
theorem handshakeCipher_congr (prim : Primitives) {left right : Block 64} (secret : Bytes)
    (heq : left.toList.take 56 = right.toList.take 56) :
    handshakeCipher prim left secret = handshakeCipher prim right secret := by
  have hprekey : left.toList.take 40 = right.toList.take 40 := by
    have := congrArg (fun bytes => bytes.take 40) heq
    simpa [List.take_take] using this
  unfold handshakeCipher
  rw [slice_congr skipLen prekeyLen (by decide) hprekey,
    slice_congr (skipLen + prekeyLen) ivLen (by decide) heq]

theorem getD_extract {bytes : Bytes} {start stop index : Nat} (hindex : start + index < stop) :
    (bytes.extract start stop).getD index 0 = bytes.getD (start + index) 0 := by
  have hlt : index < stop - start := by omega
  simp [List.extract_eq_take_drop, List.getD_eq_getElem?_getD, hlt]

section Parse

variable (prim : Primitives)

/-- What `parse_handshake` answers on a packet whose bytes 56..62 are the
masked protocol tag and DC index. -/
theorem parseHandshake_of_masked (packet : Block 64) (secret : Bytes) (dcIdx : Int16)
    (proto : ProtoTag)
    (htag : packet.toList.extract 56 60 =
      ((handshakeCipher prim packet secret).advance 56).mask prim.ks proto.asBytes)
    (hdc : packet.toList.extract 60 62 =
      ((handshakeCipher prim packet secret).advance 60).mask prim.ks (i16ToLeBytes dcIdx)) :
    parseHandshake prim packet secret =
      some ⟨dcIdx.toInt.natAbs, decide (dcIdx.toInt < 0), proto, prekeyAndIv packet⟩ := by
  let buf := (handshakeCipher prim packet secret).mask prim.ks packet.toList
  have hbufTag : buf.extract 56 60 = proto.asBytes := by
    simp only [buf, Cipher.mask_extract, htag, Cipher.mask_mask]
  have hbufDc : buf.extract 60 62 = i16ToLeBytes dcIdx := by
    simp only [buf, Cipher.mask_extract, hdc, Cipher.mask_mask]
  have hlow : buf.getD 60 0 = (i16ToLeBytes dcIdx).getD 0 0 := by
    rw [← hbufDc, getD_extract (by decide)]
  have hhigh : buf.getD 61 0 = (i16ToLeBytes dcIdx).getD 1 0 := by
    rw [← hbufDc, getD_extract (by decide)]
  have hproto : ProtoTag.fromBytes (buf.extract 56 60) = some proto := by
    rw [hbufTag, ProtoTag.fromBytes_asBytes]
  have hindex : i16FromLeBytes (buf.getD 60 0) (buf.getD 61 0) = dcIdx := by
    rw [hlow, hhigh, i16FromLeBytes_i16ToLeBytes]
  unfold parseHandshake
  dsimp only
  split
  next hnone => cases hproto.symm.trans hnone
  next found hfound =>
    cases hproto.symm.trans hfound
    change some (⟨(i16FromLeBytes (buf.getD 60 0) (buf.getD 61 0)).toInt.natAbs,
      decide ((i16FromLeBytes (buf.getD 60 0) (buf.getD 61 0)).toInt < 0), proto,
      prekeyAndIv packet⟩ : HandshakeInfo) = _
    rw [hindex]

end Parse

section ClientHandshake

variable (prim : Primitives) (secret : Bytes) (dcIdx : Int16) (proto : ProtoTag) (raw : Block 64)

theorem clientHandshakeFrom_take :
    (clientHandshakeFrom prim secret dcIdx proto raw).toList.take 56 = raw.toList.take 56 := by
  change (raw.toList.take 56 ++ _ ++ _ ++ _).take 56 = _
  rw [List.append_assoc, List.append_assoc, List.take_append_of_le_length (by simp)]
  simp

theorem clientHandshakeFrom_cipher :
    handshakeCipher prim (clientHandshakeFrom prim secret dcIdx proto raw) secret =
      handshakeCipher prim raw secret :=
  handshakeCipher_congr prim secret (clientHandshakeFrom_take prim secret dcIdx proto raw)

/-- The patched packet, piece by piece: the tag and the index are masked with
the keystream at their own positions. -/
theorem clientHandshakeFrom_toList :
    (clientHandshakeFrom prim secret dcIdx proto raw).toList =
      raw.toList.take 56 ++
        ((handshakeCipher prim raw secret).advance 56).mask prim.ks proto.asBytes ++
        ((handshakeCipher prim raw secret).advance 60).mask prim.ks (i16ToLeBytes dcIdx) ++
        raw.toList.drop 62 := by
  let cipher := handshakeCipher prim raw secret
  have hpiece (start : Nat) (data : Bytes) (hfits : start + data.length ≤ 64) :
      List.zipWith (· ^^^ ·) data
          ((cipher.mask prim.ks (List.replicate 64 0)).extract start (start + data.length)) =
        (cipher.advance start).mask prim.ks data := by
    have hzeros : (List.replicate 64 (0 : UInt8)).extract start (start + data.length) =
        List.replicate data.length 0 := by
      simp only [List.extract_eq_take_drop, List.drop_replicate, List.take_replicate]
      congr 1
      omega
    rw [Cipher.mask_extract, hzeros]
    -- Masking zeros gives the keystream itself.
    exact zipWith_xorFrom_replicate _ _ _
  have htag := hpiece 56 proto.asBytes (by simp)
  have hdc := hpiece 60 (i16ToLeBytes dcIdx) (by simp)
  rw [ProtoTag.asBytes_length] at htag
  rw [← htag, ← hdc]
  rfl

theorem clientHandshakeFrom_extract_tag :
    (clientHandshakeFrom prim secret dcIdx proto raw).toList.extract 56 60 =
      ((handshakeCipher prim raw secret).advance 56).mask prim.ks proto.asBytes := by
  rw [clientHandshakeFrom_toList, List.extract_eq_take_drop, List.append_assoc,
    List.append_assoc, List.drop_append_of_le_length (by simp), List.drop_of_length_le (by simp),
    List.nil_append, List.take_append_of_le_length (by simp), List.take_of_length_le (by simp)]

theorem clientHandshakeFrom_extract_dc :
    (clientHandshakeFrom prim secret dcIdx proto raw).toList.extract 60 62 =
      ((handshakeCipher prim raw secret).advance 60).mask prim.ks (i16ToLeBytes dcIdx) := by
  rw [clientHandshakeFrom_toList, List.extract_eq_take_drop, List.append_assoc,
    List.drop_append_of_le_length (by simp), List.drop_of_length_le (by simp),
    List.nil_append, List.take_append_of_le_length (by simp), List.take_of_length_le (by simp)]

theorem parseHandshake_clientHandshakeFrom :
    parseHandshake prim (clientHandshakeFrom prim secret dcIdx proto raw) secret =
      some ⟨dcIdx.toInt.natAbs, decide (dcIdx.toInt < 0), proto,
        prekeyAndIv (clientHandshakeFrom prim secret dcIdx proto raw)⟩ := by
  apply parseHandshake_of_masked
  · rw [clientHandshakeFrom_cipher, clientHandshakeFrom_extract_tag]
  · rw [clientHandshakeFrom_cipher, clientHandshakeFrom_extract_dc]

end ClientHandshake

/-- A successful generation stopped at a draw without reserved prefix, and its
two ciphers are the ones the server builds from the packet's own bytes. -/
theorem generateClientHandshake_eq_some (prim : Primitives) (secret : Bytes) (dcIdx : Int16)
    (proto : ProtoTag) (draws : List (Block 64)) (handshake : Block 64) (enc dec : AesCtr256)
    (hgenerate : generateClientHandshake prim secret dcIdx proto draws =
      some (handshake, enc, dec)) :
    ∃ raw ∈ draws, hasReservedPrefix raw.toList = false ∧
      handshake = clientHandshakeFrom prim secret dcIdx proto raw ∧
      ∀ relayInit,
        let ciphers := buildConnectionCiphers prim (prekeyAndIv handshake) secret relayInit
        ciphers.cltDec = enc ∧ ciphers.cltEnc = dec := by
  induction draws with
  | nil => simp [generateClientHandshake] at hgenerate
  | cons raw rest ih =>
      unfold generateClientHandshake at hgenerate
      split at hgenerate
      next hreserved =>
        obtain ⟨accepted, hmem, hrest⟩ := ih hgenerate
        exact ⟨accepted, List.mem_cons_of_mem _ hmem, hrest⟩
      next hfree =>
        simp only [Option.some.injEq, Prod.mk.injEq] at hgenerate
        obtain ⟨rfl, rfl, rfl⟩ := hgenerate
        refine ⟨raw, List.mem_cons_self, by simpa using hfree, rfl, ?_⟩
        intro relayInit
        refine ⟨?_, rfl⟩
        -- The server slices the 48-byte block, the client the 64-byte packet.
        simp only [buildConnectionCiphers, prekeyOf_prekeyAndIv, ivOf_prekeyAndIv]

/-- The two ends of a session with an upstream proxy: what the client encrypts
with `enc` the server reads with `clt_dec`, and the other way round. -/
def sessionOf (enc dec : AesCtr256) (ciphers : ConnectionCiphers) : Duplex Seed :=
  ⟨Link.fresh enc ciphers.cltDec, Link.fresh ciphers.cltEnc dec⟩

/-- Client handshake and server side agree, for every secret, index, tag and
sequence of random draws on which the generator returns. Any interleaving of
writes and reads afterwards delivers a prefix of what was sent in each
direction, and all of it once nothing is in flight. -/
theorem client_handshake_agrees (prim : Primitives) (secret : Bytes) (dcIdx : Int16)
    (proto : ProtoTag) (draws : List (Block 64)) (handshake : Block 64) (enc dec : AesCtr256)
    (hgenerate : generateClientHandshake prim secret dcIdx proto draws =
      some (handshake, enc, dec)) :
    (∃ info, parseHandshake prim handshake secret = some info ∧
      info.dcId = dcIdx.toInt.natAbs ∧
      info.isMedia = decide (dcIdx.toInt < 0) ∧
      info.proto = proto ∧
      ∀ relayInit,
        let ciphers := buildConnectionCiphers prim info.prekeyAndIv secret relayInit
        ciphers.cltDec = enc ∧ ciphers.cltEnc = dec ∧
        ∀ events,
          let session := (sessionOf enc dec ciphers).run prim.ks events
          session.up.received <+: session.up.sent ∧
          (session.up.wire = [] → session.up.received = session.up.sent) ∧
          session.down.received <+: session.down.sent ∧
          (session.down.wire = [] → session.down.received = session.down.sent)) ∧
    handshake.toList.getD 0 0 ≠ 0xef ∧
    handshake.toList.take 4 ∉ reservedStarts ∧
    handshake.toList.extract 4 8 ≠ [0, 0, 0, 0] := by
  obtain ⟨raw, _, hfree, rfl, hciphers⟩ :=
    generateClientHandshake_eq_some prim secret dcIdx proto draws handshake enc dec hgenerate
  refine ⟨⟨_, parseHandshake_clientHandshakeFrom prim secret dcIdx proto raw, rfl, rfl, rfl, ?_⟩,
    ?_⟩
  · intro relayInit
    obtain ⟨hdec, henc⟩ := hciphers relayInit
    refine ⟨hdec, henc, ?_⟩
    intro events
    have hsession := (sessionOf enc dec (buildConnectionCiphers prim
      (prekeyAndIv (clientHandshakeFrom prim secret dcIdx proto raw)) secret
      relayInit)).run_synchronized prim.ks events (by
        simp only [sessionOf, hdec, henc]
        exact ⟨Link.fresh_synchronized _ _, Link.fresh_synchronized _ _⟩)
    exact ⟨hsession.1.received_prefix_sent, hsession.1.received_eq, hsession.2.received_prefix_sent,
      hsession.2.received_eq⟩
  · have hhead : (clientHandshakeFrom prim secret dcIdx proto raw).toList.take 8 =
        raw.toList.take 8 := by
      have := congrArg (fun bytes => bytes.take 8)
        (clientHandshakeFrom_take prim secret dcIdx proto raw)
      simpa [List.take_take] using this
    rw [← hasReservedPrefix_congr hhead] at hfree
    exact not_reserved hfree

/-- A toy keystream and digest to run the generators on. -/
def samplePrimitives : Primitives where
  keystream key iv pos := key.toList.headD 0 + iv.toList.headD 0 + UInt8.ofNat pos
  sha256 bytes := ⟨List.replicate 32 (bytes.foldl (· + ·) 0), by simp⟩

/-- Two draws, the first of which starts with a reserved byte. -/
def sampleDraws : List (Block 64) :=
  [⟨List.replicate 64 0xef, by simp⟩, ⟨List.replicate 64 0x21, by simp⟩]

theorem client_handshake_agrees_sample :
    ∃ handshake enc dec, generateClientHandshake samplePrimitives [1, 2, 3] (-2) .abridged
        sampleDraws = some (handshake, enc, dec) ∧
      ∃ info, parseHandshake samplePrimitives handshake [1, 2, 3] = some info ∧
        info.dcId = 2 ∧ info.isMedia = true ∧ info.proto = .abridged := by
  refine ⟨_, _, _, rfl, ?_⟩
  obtain ⟨⟨info, hparse, hdc, hmedia, hproto, _⟩, _⟩ :=
    client_handshake_agrees samplePrimitives [1, 2, 3] (-2) .abridged sampleDraws _ _ _ rfl
  exact ⟨info, hparse, hdc.trans (by decide), hmedia.trans (by decide), hproto⟩

end TgWsProxy.Crypto
