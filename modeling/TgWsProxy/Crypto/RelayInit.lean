import TgWsProxy.Crypto.Agreement

/-!
# The relay init as Telegram reads it

`generate_relay_init` hides the protocol tag and the DC index under the keystream
of the packet's own raw key and IV. The packet is patched after the draw was
tested for reserved prefixes, and the key is sliced out of it again later; both
look at bytes 0..56 only, which the patch leaves alone.
-/

namespace TgWsProxy.Crypto

open Foundation.Keystream

/-- The cipher Telegram reads a relay init with: raw key, raw IV. -/
def relayCipher (packet : Block 64) : AesCtr256 :=
  makeCipher (packet.slice skipLen prekeyLen prekey_le_packet)
    (packet.slice (skipLen + prekeyLen) ivLen iv_le_packet)

/-- Packets with the same first 56 bytes are read with the same cipher. -/
theorem relayCipher_congr {left right : Block 64}
    (heq : left.toList.take 56 = right.toList.take 56) : relayCipher left = relayCipher right := by
  have hkey : left.toList.take 40 = right.toList.take 40 := by
    have := congrArg (fun bytes => bytes.take 40) heq
    simpa [List.take_take] using this
  unfold relayCipher
  rw [slice_congr skipLen prekeyLen (by decide) hkey,
    slice_congr (skipLen + prekeyLen) ivLen (by decide) heq]

section RelayInitFrom

variable (prim : Primitives) (proto : ProtoTag) (dcIdx : Int16) (rnd : Block 64) (pad : Block 2)

/-- The tail of the packet is the masked tag, index and padding. -/
theorem relayInitFrom_toList :
    (relayInitFrom prim proto dcIdx rnd pad).toList =
      rnd.toList.take 56 ++ ((relayCipher rnd).advance 56).mask prim.ks
        (proto.asBytes ++ i16ToLeBytes dcIdx ++ pad.toList) := by
  have htail : (proto.asBytes ++ i16ToLeBytes dcIdx ++ pad.toList).length =
      (rnd.toList.drop 56).length := by simp
  have hencrypted : ((relayCipher rnd).mask prim.ks rnd.toList).drop 56 =
      ((relayCipher rnd).advance 56).mask prim.ks (rnd.toList.drop 56) := Cipher.mask_drop _ _ _ _
  rw [Cipher.mask, ← zipWith_zipWith_xorFrom _ _ htail, ← Cipher.mask, ← hencrypted]
  rfl

theorem relayInitFrom_take :
    (relayInitFrom prim proto dcIdx rnd pad).toList.take 56 = rnd.toList.take 56 := by
  rw [relayInitFrom_toList, List.take_append_of_le_length (by simp)]
  simp

theorem relayInitFrom_cipher :
    relayCipher (relayInitFrom prim proto dcIdx rnd pad) = relayCipher rnd :=
  relayCipher_congr (relayInitFrom_take prim proto dcIdx rnd pad)

/-- Behind the first 56 bytes, decryption gives the plain tail. -/
theorem relayInitFrom_decrypt :
    ((relayCipher rnd).mask prim.ks (relayInitFrom prim proto dcIdx rnd pad).toList).drop 56 =
      proto.asBytes ++ i16ToLeBytes dcIdx ++ pad.toList := by
  rw [Cipher.mask_drop, relayInitFrom_toList, List.drop_left' (by simp), Cipher.mask_mask]

end RelayInitFrom

/-- A successful generation stopped at a draw without reserved prefix. -/
theorem generateRelayInit_eq_some {prim : Primitives} {proto : ProtoTag} {dcIdx : Int16}
    {pad : Block 2} {draws : List (Block 64)} {packet : Block 64}
    (hgenerate : generateRelayInit prim proto dcIdx pad draws = some packet) :
    ∃ rnd, hasReservedPrefix rnd.toList = false ∧
      packet = relayInitFrom prim proto dcIdx rnd pad := by
  induction draws with
  | nil => cases hgenerate
  | cons rnd draws ih =>
      unfold generateRelayInit at hgenerate
      split at hgenerate
      next => exact ih hgenerate
      next hfree =>
        cases hgenerate
        exact ⟨rnd, by simpa using hfree, rfl⟩

/-- The ciphers toward Telegram depend on the relay init alone. -/
theorem buildConnectionCiphers_relay (prim : Primitives) (block : Block 48) (secret : Bytes)
    (packet : Block 64) :
    (buildConnectionCiphers prim block secret packet).tgEnc = (relayCipher packet).advance 64 ∧
      (buildConnectionCiphers prim block secret packet).tgDec =
        makeCipher (prekeyOf (prekeyAndIv packet).reversed)
          (ivOf (prekeyAndIv packet).reversed) := ⟨rfl, rfl⟩

/-- Telegram reads the tag and the index out of every relay init that is generated,
the packet cannot be taken for another protocol, and the connection goes on with
the cipher it was read with in one direction and the one of the reversed block in
the other, whatever the client's secret and prekey are. -/
theorem relay_init_decodes (prim : Primitives) (proto : ProtoTag) (dcIdx : Int16) (pad : Block 2)
    (draws : List (Block 64)) (packet : Block 64)
    (hgenerate : generateRelayInit prim proto dcIdx pad draws = some packet) :
    ((relayCipher packet).mask prim.ks packet.toList).extract 56 60 = proto.asBytes ∧
      ((relayCipher packet).mask prim.ks packet.toList).extract 60 62 = i16ToLeBytes dcIdx ∧
      packet.toList.getD 0 0 ≠ 0xef ∧
      packet.toList.take 4 ∉ reservedStarts ∧
      packet.toList.extract 4 8 ≠ [0, 0, 0, 0] ∧
      ∀ block secret,
        let ciphers := buildConnectionCiphers prim block secret packet
        ciphers.tgEnc = (relayCipher packet).advance 64 ∧
          ciphers.tgDec = makeCipher (prekeyOf (prekeyAndIv packet).reversed)
            (ivOf (prekeyAndIv packet).reversed) := by
  obtain ⟨rnd, hfree, rfl⟩ := generateRelayInit_eq_some hgenerate
  have hplain := relayInitFrom_decrypt prim proto dcIdx rnd pad
  rw [relayInitFrom_cipher]
  generalize (relayCipher rnd).mask prim.ks
    (relayInitFrom prim proto dcIdx rnd pad).toList = plain at hplain
  have hhead : (relayInitFrom prim proto dcIdx rnd pad).toList.take 8 = rnd.toList.take 8 := by
    have := congrArg (fun bytes => bytes.take 8) (relayInitFrom_take prim proto dcIdx rnd pad)
    simpa [List.take_take] using this
  rw [← hasReservedPrefix_congr hhead] at hfree
  obtain ⟨hfirst, hstart, hcontinue⟩ := not_reserved hfree
  refine ⟨?_, ?_, hfirst, hstart, hcontinue, fun block secret => ?_⟩
  · rw [List.extract_eq_take_drop, hplain, List.append_assoc]
    exact List.take_left' (by simp)
  · have hrest : plain.drop 60 = (plain.drop 56).drop 4 := by rw [List.drop_drop]
    rw [List.extract_eq_take_drop, hrest, hplain, List.append_assoc, List.drop_left' (by simp)]
    exact List.take_left' (by simp)
  · rw [← relayInitFrom_cipher prim proto dcIdx rnd pad]
    exact buildConnectionCiphers_relay prim block secret _

theorem relay_init_decodes_sample :
    ∃ packet, generateRelayInit samplePrimitives .intermediate (-4)
        ⟨[1, 2], rfl⟩ sampleDraws = some packet ∧
      ((relayCipher packet).mask samplePrimitives.ks packet.toList).extract 56 60 =
        ProtoTag.intermediate.asBytes ∧
      ((relayCipher packet).mask samplePrimitives.ks packet.toList).extract 60 62 =
        [0xfc, 0xff] := by
  refine ⟨_, rfl, ?_⟩
  obtain ⟨htag, hindex, -⟩ := relay_init_decodes samplePrimitives .intermediate (-4) ⟨[1, 2], rfl⟩
    sampleDraws _ rfl
  exact ⟨htag, hindex⟩

end TgWsProxy.Crypto
