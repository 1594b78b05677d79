import TgWsProxy.FakeTls.HelloFormat

/-!
# The ClientHello of the proxy is accepted

The builder counts its seven nested lengths by hand, and builder, signer and
parser each know the place of the `random` field by a constant of their own. The
record that comes out is a message of the format, in which every length field is
the length of what it covers, and the parser returns what went in.
-/

namespace TgWsProxy.FakeTls

open Foundation.Machine TgWsProxy.Crypto

/-! ## The random field -/

theorem overwrite_eq {bytes front middle back patch : Bytes} {start : Nat}
    (hbytes : bytes = front ++ (middle ++ back)) (hstart : start = front.length)
    (hpatch : patch.length = middle.length) :
    overwrite bytes start patch = front ++ (patch ++ back) := by
  subst hbytes hstart
  rw [overwrite, List.take_left, hpatch, ← List.drop_drop, List.drop_left, List.drop_left,
    List.append_assoc]

/-- The same message with another random field. -/
def HelloBody.withRandom (body : HelloBody) (random : Block 32) : HelloBody :=
  { body with random }

theorem HelloBody.encode_withRandom (body : HelloBody) (random : Block 32) :
    (body.withRandom random).encode.length = body.encode.length := by
  rw [(body.withRandom random).split.length_eq, body.split.length_eq]
  rfl

def ClientHello.withRandom (message : ClientHello) (random : Block 32) : ClientHello where
  version := message.version
  body := message.body.withRandom random
  fits := by
    rw [message.body.encode_withRandom]
    exact message.fits

theorem HelloBody.exists_after_random (body : HelloBody) :
    ∃ back, ∀ random,
      (body.withRandom random).encode = body.version.toList ++ (random.toList ++ back) := by
  refine ⟨body.encode.drop 34, fun random => ?_⟩
  rw [body.split.bytes_eq, List.drop_left' body.split.front_length]
  exact (body.withRandom random).split.bytes_eq.trans (List.append_assoc _ _ _)

/-- Messages that differ in the random field only agree before and behind it. -/
theorem ClientHello.exists_around_random (message : ClientHello) :
    ∃ front back, front.length = 11 ∧
      ∀ random, (message.withRandom random).encode = front ++ (random.toList ++ back) := by
  obtain ⟨back, hbody⟩ := message.body.exists_after_random
  refine ⟨tlsRecordHandshake :: message.version.1 :: message.version.2 ::
    (u16ToBeBytes (4 + message.body.encode.length) ++ tlsHandshakeClientHello ::
      (u24ToBeBytes message.body.encode.length ++ message.body.version.toList)), back, ?_,
    fun random => ?_⟩
  · simp [u16ToBeBytes, u24ToBeBytes]
  · have hlength : (message.withRandom random).body.encode.length = message.body.encode.length :=
      message.body.encode_withRandom random
    rw [ClientHello.encode, hlength]
    simp [ClientHello.withRandom, hbody]

/-- A patch of 32 bytes at the place of the random field is another random field. -/
theorem ClientHello.overwrite_random (message : ClientHello) (random : Block 32) :
    overwrite message.encode 11 random.toList = (message.withRandom random).encode := by
  obtain ⟨front, back, hfront, hencode⟩ := message.exists_around_random
  have hmessage : message.encode = front ++ (message.body.random.toList ++ back) :=
    hencode message.body.random
  rw [hencode, overwrite_eq hmessage hfront.symm (by simp)]

/-- Two patches in a row. -/
theorem overwrite_overwrite {bytes first second : Bytes} {start : Nat}
    (hfits : start + first.length ≤ bytes.length) :
    overwrite (overwrite bytes start first) (start + first.length) second =
      overwrite bytes start (first ++ second) := by
  have hfront : (overwrite bytes start first).take (start + first.length) =
      bytes.take start ++ first := by
    rw [overwrite]
    exact List.take_left' (by simp; omega)
  have hback : (overwrite bytes start first).drop (start + first.length + second.length) =
      bytes.drop (start + (first ++ second).length) := by
    rw [overwrite, ← List.drop_drop, List.drop_left' (by simp; omega), List.drop_drop,
      List.length_append, Nat.add_assoc]
  rw [overwrite, hfront, hback, overwrite, List.append_assoc (bytes.take start)]

/-! ## Signing -/

/-- What the signer puts into the random field. -/
def signature (hmac : Hmac) (timestamp : UInt32) (unsigned secret : Bytes) : Block 32 :=
  let computed := hmac secret unsigned
  ⟨computed.toList.take 28 ++
    List.zipWith (· ^^^ ·) (computed.toList.drop 28) (u32ToLeBytes timestamp), by
      simp [u32ToLeBytes]⟩

theorem signFaketlsClientHello_encode (hmac : Hmac) (timestamp : UInt32) (message : ClientHello)
    (secret : Bytes) :
    signFaketlsClientHello hmac timestamp message.encode secret =
      .ok (message.withRandom (signature hmac timestamp
        (message.withRandom (List.Vector.replicate 32 0)).encode secret)).encode := by
  have hzero : overwrite message.encode tlsDigestPos (List.replicate tlsDigestLen 0) =
      (message.withRandom (List.Vector.replicate 32 0)).encode :=
    message.overwrite_random (List.Vector.replicate 32 0)
  obtain ⟨front, back, hfront, hencode⟩ := message.exists_around_random
  have hlong : 43 ≤ (front ++ (message.body.random.toList ++ back)).length := by
    simp [hfront]
    omega
  have hlength : ¬ message.encode.length < tlsDigestPos + tlsDigestLen :=
    Nat.not_lt.mpr ((congrArg List.length (hencode message.body.random)).symm ▸ hlong)
  rw [signFaketlsClientHello, if_neg hlength]
  simp only [hzero]
  obtain ⟨unsigned, hunsigned⟩ : ∃ unsigned, unsigned =
    message.withRandom (List.Vector.replicate 32 0) := ⟨_, rfl⟩
  rw [← hunsigned]
  have hsigned : (message.withRandom (signature hmac timestamp unsigned.encode secret)).encode =
      overwrite unsigned.encode 11 (signature hmac timestamp unsigned.encode secret).toList := by
    rw [unsigned.overwrite_random, hunsigned]
    rfl
  have hfirst : ((hmac secret unsigned.encode).toList.take 28).length = 28 := by simp
  have hfits : 11 + ((hmac secret unsigned.encode).toList.take 28).length ≤
      unsigned.encode.length := by
    rw [hfirst, hunsigned, hencode, List.length_append, List.length_append, hfront,
      List.Vector.toList_length]
    omega
  have hpatches := @overwrite_overwrite unsigned.encode
    ((hmac secret unsigned.encode).toList.take 28)
    (List.zipWith (· ^^^ ·) ((hmac secret unsigned.encode).toList.drop 28)
      (u32ToLeBytes timestamp)) 11 hfits
  rw [hfirst] at hpatches
  rw [hsigned]
  exact congrArg Except.ok hpatches

/-- A signed message carries the digest of the message with its random field zeroed. -/
theorem digestMatches_sign (hmac : Hmac) (timestamp : UInt32) (message : ClientHello)
    (secret : Bytes) :
    DigestMatches hmac (message.withRandom (signature hmac timestamp
      (message.withRandom (List.Vector.replicate 32 0)).encode secret)).encode secret := by
  obtain ⟨unsigned, hunsigned⟩ : ∃ unsigned, unsigned =
    message.withRandom (List.Vector.replicate 32 0) := ⟨_, rfl⟩
  rw [← hunsigned]
  obtain ⟨signed, hsigned⟩ : ∃ signed, signed =
    message.withRandom (signature hmac timestamp unsigned.encode secret) := ⟨_, rfl⟩
  have hzero : overwrite signed.encode (5 + tlsClientRandomOffsetInHandshake)
      (List.replicate tlsDigestLen 0) = unsigned.encode := by
    rw [hunsigned, hsigned]
    exact (message.withRandom _).overwrite_random (List.Vector.replicate 32 0)
  have hrandom : (signed.encode.drop 11).take 28 = signed.body.random.toList.take 28 := by
    rw [signed.random_eq, List.take_take]
    rfl
  rw [← hsigned, DigestMatches, clientHelloDigest, hzero, hrandom, hsigned]
  exact List.take_left' (by simp)

/-! ## Building -/

/-- The list of server names, with one host name. -/
def serverNameList (host : Bytes) : Bytes := [0] ++ u16ToBeBytes host.length ++ host

@[simp] theorem serverNameList_length (host : Bytes) :
    (serverNameList host).length = 3 + host.length := by
  simp [serverNameList, u16ToBeBytes]
  omega

theorem serverNameBody_fits {host : Bytes} (hfits : 5 + host.length < 2 ^ 16) :
    (u16ToBeBytes (serverNameList host).length ++ serverNameList host).length < 2 ^ 16 := by
  simp [u16ToBeBytes]
  omega

/-- The server name extension. -/
def serverNameExtension (host : Bytes) (hfits : 5 + host.length < 2 ^ 16) : Extension where
  extType := (0, 0)
  body := u16ToBeBytes (serverNameList host).length ++ serverNameList host
  fits := serverNameBody_fits hfits

/-- The length of the handshake message for a host name. -/
def helloHandshakeLen (hostname : String) : Nat :=
  4 + (2 + 32 + 1 + 32 + 2 + offeredCipherSuites.length + 2 + 2 +
    (4 + (2 + (3 + (utf8Bytes hostname).length)) + fixedExtensions.length))

theorem helloHandshakeLen_eq (hostname : String) :
    helloHandshakeLen hostname = 175 + (utf8Bytes hostname).length := by
  simp only [helloHandshakeLen, offeredCipherSuites, fixedExtensions, List.length_cons,
    List.length_nil]
  omega

theorem serverName_fits {hostname : String} (hfits : helloHandshakeLen hostname < 2 ^ 16) :
    5 + (utf8Bytes hostname).length < 2 ^ 16 := by
  rw [helloHandshakeLen_eq] at hfits
  omega

theorem builtExtensions_fit {hostname : String} (hfits : helloHandshakeLen hostname < 2 ^ 16) :
    ((serverNameExtension (utf8Bytes hostname) (serverName_fits hfits)).encode ++
      fixedExtensions).length < 2 ^ 16 := by
  rw [helloHandshakeLen_eq] at hfits
  simp [Extension.encode, serverNameExtension, u16ToBeBytes, fixedExtensions]
  omega

theorem sessionId_fits (sessionId : Block 32) : sessionId.toList.length < 2 ^ 8 := by simp

theorem offeredCipherSuites_ge : 2 ≤ offeredCipherSuites.length := by decide

theorem offeredCipherSuites_fit : offeredCipherSuites.length < 2 ^ 16 := by decide

theorem nullCompression_fits : [(0 : UInt8)].length < 2 ^ 8 := by decide

/-- The body that the builder writes. -/
def builtBody (hostname : String) (sessionId : Block 32)
    (hfits : helloHandshakeLen hostname < 2 ^ 16) : HelloBody where
  version := ⟨[tlsVersion12.1, tlsVersion12.2], rfl⟩
  random := List.Vector.replicate 32 0
  sessionId := sessionId.toList
  cipherSuites := offeredCipherSuites
  compression := [0]
  extensions := (serverNameExtension (utf8Bytes hostname) (serverName_fits hfits)).encode ++
    fixedExtensions
  trailing := []
  sessionId_lt := sessionId_fits sessionId
  cipherSuites_ge := offeredCipherSuites_ge
  cipherSuites_lt := offeredCipherSuites_fit
  compression_lt := nullCompression_fits
  extensions_lt := builtExtensions_fit hfits

theorem builtBody_length (hostname : String) (sessionId : Block 32)
    (hfits : helloHandshakeLen hostname < 2 ^ 16) :
    4 + (builtBody hostname sessionId hfits).encode.length = helloHandshakeLen hostname := by
  rw [(builtBody hostname sessionId hfits).split.length_eq, helloHandshakeLen_eq]
  simp [builtBody, Extension.encode, serverNameExtension, u16ToBeBytes, fixedExtensions,
    offeredCipherSuites]
  omega

/-- The message that the builder writes. -/
def builtHello (hostname : String) (sessionId : Block 32)
    (hfits : helloHandshakeLen hostname < 2 ^ 16) : ClientHello where
  version := tlsRecordVersion
  body := builtBody hostname sessionId hfits
  fits := by rwa [builtBody_length]

/-- The hand-counted lengths are those of the message. -/
theorem buildFaketlsClientHello_eq (hostname : String) (sessionId : Block 32)
    (hfits : helloHandshakeLen hostname < 2 ^ 16) :
    buildFaketlsClientHello hostname sessionId =
      .ok (builtHello hostname sessionId hfits).encode := by
  have hhost := serverName_fits hfits
  have hhostLen : (utf8Bytes hostname).length % 2 ^ 16 = (utf8Bytes hostname).length :=
    Nat.mod_eq_of_lt (by omega)
  have hhelloLen : (builtBody hostname sessionId hfits).encode.length =
      2 + 32 + 1 + 32 + 2 + offeredCipherSuites.length + 2 + 2 +
        (4 + (2 + (3 + (utf8Bytes hostname).length)) + fixedExtensions.length) := by
    have hlength := builtBody_length hostname sessionId hfits
    rw [helloHandshakeLen] at hlength
    omega
  have hdataLen : (serverNameExtension (utf8Bytes hostname) hhost).body.length =
      2 + (3 + (utf8Bytes hostname).length) := by
    simp [serverNameExtension, u16ToBeBytes]
    omega
  have hextensionsLen : (builtBody hostname sessionId hfits).extensions.length =
      4 + (2 + (3 + (utf8Bytes hostname).length)) + fixedExtensions.length := by
    simp only [builtBody, List.length_append, Extension.encode, List.length_cons, hdataLen,
      u16ToBeBytes, List.length_nil]
    omega
  unfold buildFaketlsClientHello
  simp only [hhostLen]
  rw [u16Sum, if_pos (by omega)]
  simp only [ok_bind]
  rw [u16Sum, if_pos (by omega)]
  simp only [ok_bind]
  refine congrArg Except.ok ?_
  have hbody : (builtBody hostname sessionId hfits).encode =
      [tlsVersion12.1, tlsVersion12.2] ++ List.replicate 32 0 ++
        [UInt8.ofNat sessionId.toList.length] ++ sessionId.toList ++
        u16ToBeBytes offeredCipherSuites.length ++ offeredCipherSuites ++ [1] ++ [0] ++
        u16ToBeBytes (4 + (2 + (3 + (utf8Bytes hostname).length)) + fixedExtensions.length) ++
        ((serverNameExtension (utf8Bytes hostname) hhost).encode ++ fixedExtensions) ++ [] := by
    rw [HelloBody.encode, hextensionsLen]
    rfl
  rw [ClientHello.encode]
  change _ = _ :: _ :: _ ::
    (u16ToBeBytes (4 + (builtBody hostname sessionId hfits).encode.length) ++
      tlsHandshakeClientHello :: (u24ToBeBytes (builtBody hostname sessionId hfits).encode.length ++
        (builtBody hostname sessionId hfits).encode))
  rw [hhelloLen, hbody, Extension.encode, hdataLen]
  simp only [serverNameExtension, serverNameList_length]
  simp only [serverNameList, List.append_assoc, List.cons_append, List.nil_append, u24ToBeBytes,
    List.append_nil]
  rfl

/-! ## Reading the host name back -/

theorem parseServerName_list (width : PointerWidth) {hostname : String}
    (hfits : 5 + (utf8Bytes hostname).length < 2 ^ 16) :
    parseServerName width (serverNameExtension (utf8Bytes hostname) hfits).body =
      .ok (some hostname) := by
  obtain ⟨host, hhost⟩ : ∃ host, host = utf8Bytes hostname := ⟨_, rfl⟩
  have hname : String.fromUTF8? ⟨host.toArray⟩ = some hostname :=
    hhost ▸ fromUTF8_utf8Bytes hostname
  simp only [← hhost] at hfits ⊢
  have hbody : (serverNameExtension host hfits).body =
      UInt8.ofNat ((3 + host.length) >>> 8) :: UInt8.ofNat (3 + host.length) :: 0 ::
        UInt8.ofNat (host.length >>> 8) :: UInt8.ofNat host.length :: host := by
    change u16ToBeBytes (serverNameList host).length ++ serverNameList host = _
    rw [serverNameList_length]
    rfl
  generalize (serverNameExtension host hfits).body = ext at hbody
  have hlength : ext.length = 5 + host.length := by
    rw [hbody]
    simp only [List.length_cons]
    omega
  have hbyte0 : byteAt ext 0 = .ok (UInt8.ofNat ((3 + host.length) >>> 8)) := by rw [hbody]; rfl
  have hbyte1 : byteAt ext 1 = .ok (UInt8.ofNat (3 + host.length)) := by rw [hbody]; rfl
  have hbyte2 : byteAt ext 2 = .ok 0 := by rw [hbody]; rfl
  have hbyte3 : byteAt ext 3 = .ok (UInt8.ofNat (host.length >>> 8)) := by rw [hbody]; rfl
  have hbyte4 : byteAt ext 4 = .ok (UInt8.ofNat host.length) := by rw [hbody]; rfl
  have hslice : sliceAt ext 5 (5 + host.length) = .ok host := by
    rw [← hlength, sliceAt_drop (by omega), hbody]
    rfl
  unfold parseServerName
  rw [hbyte0, hbyte1]
  simp only [ok_bind, u16FromBeBytes_u16ToBeBytes (show 3 + host.length < 2 ^ 16 by omega)]
  rw [usizeSum_cons width _ (by omega), usizeSum_nil]
  simp only [ok_bind]
  rw [if_neg (by omega), if_neg (by omega), hbyte2]
  simp only [ok_bind]
  rw [if_neg (fun hne => hne rfl), hbyte3, hbyte4]
  simp only [ok_bind, u16FromBeBytes_u16ToBeBytes (show host.length < 2 ^ 16 by omega)]
  rw [usizeSum_cons width _ (by omega), usizeSum_nil]
  simp only [ok_bind]
  rw [if_neg (by omega), hslice]
  simp only [ok_bind, hname]
  rfl

theorem parseSniExtension_built (width : PointerWidth) (hostname : String) (sessionId : Block 32)
    (hfits : helloHandshakeLen hostname < 2 ^ 16) :
    parseSniExtension width (builtBody hostname sessionId hfits).extensions =
      .ok (some hostname) := by
  have hhost := serverName_fits hfits
  have hname := parseServerName_list width hhost
  generalize hext : serverNameExtension (utf8Bytes hostname) hhost = ext at hname
  have htype : ext.extType = (0, 0) := by rw [← hext]; rfl
  have hlength : 5 ≤ ext.body.length := by
    rw [← hext]
    simp [serverNameExtension, u16ToBeBytes]
  have hextensions : (builtBody hostname sessionId hfits).extensions =
      0 :: 0 :: UInt8.ofNat (ext.body.length >>> 8) :: UInt8.ofNat ext.body.length ::
        (ext.body ++ fixedExtensions) := by
    change (serverNameExtension (utf8Bytes hostname) hhost).encode ++ fixedExtensions = _
    rw [hext, Extension.encode, htype]
    rfl
  have hlen := u16FromBeBytes_u16ToBeBytes ext.fits
  rw [hextensions, parseSniExtension]
  simp only [hlen]
  rw [if_neg (by simp), List.take_left, if_neg]
  · exact hname
  · rintro (hother | hshort)
    · exact hother rfl
    · omega

/-! ## Round trip -/

/-- What `build` and `sign` make for a host name is a message whose length fields cover
what they should, and it is accepted under the same secret with that host name and
session id. -/
theorem faketls_client_hello_round_trip (hmac : Hmac) (width : PointerWidth) (secret : Bytes)
    (hostname : String) (sessionId : Block 32) (timestamp : UInt32)
    (hfits : helloHandshakeLen hostname < 2 ^ 16) :
    ∃ unsigned signed hello, buildFaketlsClientHello hostname sessionId = .ok unsigned ∧
      signFaketlsClientHello hmac timestamp unsigned secret = .ok signed ∧
      parseFaketlsClientHello hmac width signed secret = .ok (some hello) ∧
      hello.hostname = some hostname ∧
      hello.sessionId = sessionId.toList ∧
      hello.random.toList = (signed.drop 11).take 32 ∧
      hello.cipherSuite = (0x13, 0x01) ∧
      ∃ (message : ClientHello) (serverName : Extension), signed = message.encode ∧
        message.body.sessionId = sessionId.toList ∧
        message.body.cipherSuites = offeredCipherSuites ∧
        message.body.extensions = serverName.encode ++ fixedExtensions ∧
        message.body.trailing = [] ∧
        serverName.extType = (0, 0) ∧
        serverName.body =
          u16ToBeBytes (serverNameList (utf8Bytes hostname)).length ++
            serverNameList (utf8Bytes hostname) := by
  obtain ⟨message, hmessage⟩ : ∃ message, message = (builtHello hostname sessionId hfits).withRandom
    (signature hmac timestamp ((builtHello hostname sessionId hfits).withRandom
      (List.Vector.replicate 32 0)).encode secret) := ⟨_, rfl⟩
  have hdigest : DigestMatches hmac message.encode secret :=
    hmessage ▸ digestMatches_sign hmac timestamp _ secret
  have hhostname : parseSniExtension width message.body.extensions = .ok (some hostname) := by
    rw [hmessage]
    exact parseSniExtension_built width hostname sessionId hfits
  refine ⟨_, message.encode, _, buildFaketlsClientHello_eq hostname sessionId hfits, ?_,
    parseFaketlsClientHello_encode width hdigest hhostname, rfl, ?_, message.random_eq, ?_,
    message, serverNameExtension (utf8Bytes hostname) (serverName_fits hfits), rfl, ?_⟩
  · rw [signFaketlsClientHello_encode, hmessage]
  · rw [hmessage]
    rfl
  · rw [hmessage]
    rfl
  · rw [hmessage]
    exact ⟨rfl, rfl, rfl, rfl, rfl, rfl⟩

theorem faketls_client_hello_round_trip_example :
    ∃ unsigned signed hello,
      buildFaketlsClientHello "example.com" (List.Vector.replicate 32 7) = .ok unsigned ∧
      signFaketlsClientHello (fun _ _ => List.Vector.replicate 32 1) 0x6553f100 unsigned [1, 2] =
        .ok signed ∧
      parseFaketlsClientHello (fun _ _ => List.Vector.replicate 32 1) .bits32 signed [1, 2] =
        .ok (some hello) ∧
      hello.hostname = some "example.com" := by
  obtain ⟨unsigned, signed, hello, hbuild, hsign, hparse, hhostname, -⟩ :=
    faketls_client_hello_round_trip (fun _ _ => List.Vector.replicate 32 1) .bits32 [1, 2]
      "example.com" (List.Vector.replicate 32 7) 0x6553f100
      (by rw [helloHandshakeLen_eq]; decide)
  exact ⟨unsigned, signed, hello, hbuild, hsign, hparse, hhostname⟩

end TgWsProxy.FakeTls
