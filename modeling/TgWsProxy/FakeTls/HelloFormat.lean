import TgWsProxy.FakeTls.HelloBody

/-!
# The format of a ClientHello

A ClientHello is a body with a handshake header and a record header around it. The parser
accepts exactly the encodings of such messages that are signed with the secret, and returns
their blocks; every other input it rejects without a fault.
-/

namespace TgWsProxy.FakeTls

open Foundation.Machine TgWsProxy.Crypto

/-! ## The record around the body -/

/-- The three bytes of a handshake length. -/
def u24ToBeBytes (len : Nat) : Bytes :=
  [UInt8.ofNat (len >>> 16), UInt8.ofNat (len >>> 8), UInt8.ofNat len]

theorem u24_eq (high middle low : UInt8) :
    high.toNat <<< 16 ||| middle.toNat <<< 8 ||| low.toNat =
      high.toNat * 65536 + middle.toNat * 256 + low.toNat := by
  have hmiddle := middle.toNat_lt
  have hlow := low.toNat_lt
  have hfirst : high.toNat <<< 16 ||| middle.toNat <<< 8 =
      (high.toNat * 256 + middle.toNat) <<< 8 := by
    rw [← Nat.shiftLeft_add_eq_or_of_lt (by rw [Nat.shiftLeft_eq]; omega)]
    simp only [Nat.shiftLeft_eq]
    omega
  rw [hfirst, ← Nat.shiftLeft_add_eq_or_of_lt hlow, Nat.shiftLeft_eq]
  omega

theorem u24_u24ToBeBytes {len : Nat} (hlen : len < 2 ^ 24) :
    (UInt8.ofNat (len >>> 16)).toNat <<< 16 ||| (UInt8.ofNat (len >>> 8)).toNat <<< 8 |||
      (UInt8.ofNat len).toNat = len := by
  rw [u24_eq]
  simp only [UInt8.toNat_ofNat', Nat.shiftRight_eq_div_pow]
  omega

theorem u24ToBeBytes_u24 (high middle low : UInt8) :
    u24ToBeBytes (high.toNat <<< 16 ||| middle.toNat <<< 8 ||| low.toNat) =
      [high, middle, low] := by
  have hmiddle := middle.toNat_lt
  have hlow := low.toNat_lt
  have hhigh := high.toNat_lt
  rw [u24_eq]
  simp only [u24ToBeBytes, Nat.shiftRight_eq_div_pow, List.cons.injEq, and_true,
    ← UInt8.toNat_inj, UInt8.toNat_ofNat']
  omega

/-- A record with a handshake header around the body. -/
structure Wraps (record body : Bytes) : Prop where
  bytes_eq : ∃ version : UInt8 × UInt8, record = tlsRecordHandshake :: version.1 :: version.2 ::
    (u16ToBeBytes (4 + body.length) ++
      tlsHandshakeClientHello :: (u24ToBeBytes body.length ++ body))
  fits : 4 + body.length < 2 ^ 16

/-- Bytes 11..39 of the record are those of the digest. -/
def DigestMatches (hmac : Hmac) (record secret : Bytes) : Prop :=
  (record.drop 11).take 28 = (clientHelloDigest hmac record secret).toList.take 28

theorem eq_zero_of_mem_xor_self {list : Bytes} {byte : UInt8}
    (hmem : byte ∈ List.zipWith (· ^^^ ·) list list) : byte = 0 := by
  induction list with
  | nil => cases hmem
  | cons head list ih =>
      rcases List.mem_cons.mp hmem with rfl | hmem
      · exact UInt8.xor_self
      · exact ih hmem

theorem any_xor_iff {left right : Bytes} (hlength : left.length = right.length) (count : Nat) :
    ((List.zipWith (· ^^^ ·) left right).take count).any (· ≠ 0) = true ↔
      left.take count ≠ right.take count := by
  rw [List.take_zipWith]
  constructor
  · intro hany heq
    obtain ⟨byte, hmem, hbyte⟩ := List.any_eq_true.mp hany
    rw [heq] at hmem
    exact of_decide_eq_true hbyte (eq_zero_of_mem_xor_self hmem)
  · intro hne
    by_contra hnone
    apply hne
    apply eq_of_zipWith_xor (by simp [hlength])
    intro byte hmem
    by_contra hbyte
    exact hnone (List.any_eq_true.mpr ⟨byte, hmem, decide_eq_true hbyte⟩)

/-- The random field of a record that is long enough. -/
theorem blockAt_of_le {bytes : Bytes} {start len : Nat} (hle : start + len ≤ bytes.length) :
    ∃ block : Block len, blockAt bytes start len = .ok block ∧
      block.toList = (bytes.drop start).take len := by
  unfold blockAt
  rw [dif_pos hle]
  exact ⟨_, rfl, rfl⟩

/-- The comparison of the digest, as the parser makes it. -/
theorem digest_check_iff {hmac : Hmac} {record secret : Bytes} {clientRandom : Block 32}
    (hrandom : clientRandom.toList = (record.drop 11).take 32) :
    (((List.zipWith (· ^^^ ·) (clientHelloDigest hmac record secret).toList
      clientRandom.toList).take 28).any (· ≠ 0) = true) ↔ ¬ DigestMatches hmac record secret := by
  rw [any_xor_iff (by simp), hrandom, List.take_take, DigestMatches]
  exact ⟨fun hne heq => hne heq.symm, fun hne heq => hne heq.symm⟩

theorem sliceAt_drop {bytes : Bytes} {start : Nat} (hstart : start ≤ bytes.length) :
    sliceAt bytes start bytes.length = .ok (bytes.drop start) := by
  rw [sliceAt_of_le hstart (Nat.le_refl _), List.extract_eq_take_drop, ← List.length_drop,
    List.take_length]

theorem verifyClientHello_wraps {hmac : Hmac} {record body secret : Bytes} {clientRandom : Block 32}
    (width : PointerWidth) (hwraps : Wraps record body) (hbody : 38 ≤ body.length)
    (hrandom : clientRandom.toList = (record.drop 11).take 32)
    (hdigest : DigestMatches hmac record secret) :
    verifyClientHello hmac width record secret = .ok (some (clientRandom, body)) := by
  obtain ⟨⟨version, hrecord⟩, hfits⟩ := hwraps
  have hlength : record.length = 9 + body.length := by
    rw [hrecord]
    simp [u16ToBeBytes, u24ToBeBytes]
    omega
  obtain ⟨block, hblock, hblockList⟩ :=
    @blockAt_of_le record (5 + tlsClientRandomOffsetInHandshake) tlsDigestLen
      (by simp only [tlsClientRandomOffsetInHandshake, tlsDigestLen]; omega)
  obtain rfl : block = clientRandom := List.Vector.toList_injective (hblockList.trans hrandom.symm)
  have hcheck : ¬ ((List.zipWith (· ^^^ ·) (clientHelloDigest hmac record secret).toList
      block.toList).take 28).any (· ≠ 0) = true :=
    fun hany => (digest_check_iff hrandom).mp hany hdigest
  have hrecordType : byteAt record 0 = .ok tlsRecordHandshake := by rw [hrecord]; rfl
  have hlen0 : byteAt record 3 = .ok (UInt8.ofNat ((4 + body.length) >>> 8)) := by rw [hrecord]; rfl
  have hlen1 : byteAt record 4 = .ok (UInt8.ofNat (4 + body.length)) := by rw [hrecord]; rfl
  have hdrop : record.drop 5 = tlsHandshakeClientHello :: (u24ToBeBytes body.length ++ body) := by
    rw [hrecord]
    rfl
  have hhandshake : sliceAt record 5 record.length =
      .ok (tlsHandshakeClientHello :: (u24ToBeBytes body.length ++ body)) := by
    rw [sliceAt_drop (by omega), hdrop]
  obtain ⟨handshake, heq⟩ : ∃ handshake, handshake =
    tlsHandshakeClientHello :: (u24ToBeBytes body.length ++ body) := ⟨_, rfl⟩
  have hhandshakeLength : handshake.length = 4 + body.length := by
    rw [heq]
    simp [u24ToBeBytes]
    omega
  have hhandshakeType : byteAt handshake 0 = .ok tlsHandshakeClientHello := by rw [heq]; rfl
  have hhigh : byteAt handshake 1 = .ok (UInt8.ofNat (body.length >>> 16)) := by rw [heq]; rfl
  have hmiddle : byteAt handshake 2 = .ok (UInt8.ofNat (body.length >>> 8)) := by rw [heq]; rfl
  have hlow : byteAt handshake 3 = .ok (UInt8.ofNat body.length) := by rw [heq]; rfl
  have hbodySlice : sliceAt handshake 4 handshake.length = .ok body := by
    rw [sliceAt_drop (by omega), heq]
    rfl
  unfold verifyClientHello
  rw [if_neg (by simp only [tlsClientRandomOffsetInHandshake, tlsDigestLen]; omega), hrecordType]
  simp only [ok_bind]
  rw [if_neg (fun hne => hne rfl), hlen0, hlen1]
  simp only [ok_bind, u16FromBeBytes_u16ToBeBytes hfits]
  rw [usizeSum_cons width _ (by omega), usizeSum_nil]
  simp only [ok_bind]
  rw [if_neg (by omega), hhandshake, ← heq]
  simp only [ok_bind]
  rw [if_neg (by omega), hhandshakeType]
  simp only [ok_bind]
  rw [if_neg (fun hne => hne rfl), hhigh, hmiddle, hlow]
  simp only [ok_bind, u24_u24ToBeBytes (show body.length < 2 ^ 24 by omega)]
  rw [usizeSum_cons width _ (by omega), usizeSum_nil]
  simp only [ok_bind]
  rw [if_neg (by omega), hblock]
  simp only [ok_bind]
  rw [if_neg hcheck, hbodySlice]
  rfl

/-- Nine bytes of headers, and the body behind them. -/
theorem exists_headers {record : Bytes} (hlength : 9 ≤ record.length) :
    ∃ recordType major minor len0 len1 handshakeType high middle low body,
      record = recordType :: major :: minor :: len0 :: len1 :: handshakeType :: high :: middle ::
        low :: body := by
  refine ⟨record[0], record[1], record[2], record[3], record[4], record[5], record[6], record[7],
    record[8], record.drop 9, ?_⟩
  simp only [List.getElem_cons_drop, List.drop_zero]

/-- A record that the first half of the parser does not reject is a signed hello. -/
theorem verifyClientHello_rejects (hmac : Hmac) (width : PointerWidth) (record secret : Bytes) :
    RejectsUnless (∃ body, Wraps record body ∧ 38 ≤ body.length ∧ DigestMatches hmac record secret)
      (verifyClientHello hmac width record secret) := by
  unfold verifyClientHello
  refine .check fun hshort => ?_
  simp only [tlsClientRandomOffsetInHandshake, tlsDigestLen] at hshort
  obtain ⟨recordType, major, minor, len0, len1, handshakeType, high, middle, low, body, hrecord⟩ :=
    @exists_headers record (by omega)
  have hlength : record.length = 9 + body.length := by
    rw [hrecord]
    simp only [List.length_cons]
    omega
  have hlenLt := u16FromBeBytes_lt len0 len1
  have hhandshakeLen := u24_eq high middle low
  have hhighLt := high.toNat_lt
  have hmiddleLt := middle.toNat_lt
  have hlowLt := low.toNat_lt
  have hbyte0 : byteAt record 0 = .ok recordType := by rw [hrecord]; rfl
  have hbyte3 : byteAt record 3 = .ok len0 := by rw [hrecord]; rfl
  have hbyte4 : byteAt record 4 = .ok len1 := by rw [hrecord]; rfl
  obtain ⟨handshake, heq⟩ : ∃ handshake, handshake =
    handshakeType :: high :: middle :: low :: body := ⟨_, rfl⟩
  have hhandshake : sliceAt record 5 record.length = .ok handshake := by
    rw [sliceAt_drop (by omega), hrecord, heq]
    rfl
  have hhandshakeLength : handshake.length = 4 + body.length := by
    rw [heq]
    simp only [List.length_cons]
    omega
  have hhandshake0 : byteAt handshake 0 = .ok handshakeType := by rw [heq]; rfl
  have hhandshake1 : byteAt handshake 1 = .ok high := by rw [heq]; rfl
  have hhandshake2 : byteAt handshake 2 = .ok middle := by rw [heq]; rfl
  have hhandshake3 : byteAt handshake 3 = .ok low := by rw [heq]; rfl
  obtain ⟨block, hblock, hrandom⟩ :=
    @blockAt_of_le record (5 + tlsClientRandomOffsetInHandshake) tlsDigestLen
      (by simp only [tlsClientRandomOffsetInHandshake, tlsDigestLen]; omega)
  rw [hbyte0]
  simp only [ok_bind]
  refine .check fun hrecordType => ?_
  rw [hbyte3, hbyte4]
  simp only [ok_bind]
  rw [usizeSum_cons width _ (by omega), usizeSum_nil]
  simp only [ok_bind]
  refine .check fun hrecordLen => ?_
  rw [hhandshake]
  simp only [ok_bind]
  refine .check fun _ => ?_
  rw [hhandshake0]
  simp only [ok_bind]
  refine .check fun hhandshakeType => ?_
  rw [hhandshake1, hhandshake2, hhandshake3]
  simp only [ok_bind]
  rw [usizeSum_cons width _ (by omega), usizeSum_nil]
  simp only [ok_bind]
  refine .check fun hhandshakeFits => ?_
  rw [hblock]
  simp only [ok_bind]
  refine .check fun hdigest => .inr ⟨body, ⟨⟨(major, minor), ?_⟩, by omega⟩, by omega, ?_⟩
  · have hlen : 4 + body.length = u16FromBeBytes len0 len1 := by omega
    have hbody : body.length = high.toNat <<< 16 ||| middle.toNat <<< 8 ||| low.toNat := by omega
    rw [hlen, u16ToBeBytes_u16FromBeBytes, hbody, u24ToBeBytes_u24, hrecord,
      Decidable.not_not.mp hrecordType, Decidable.not_not.mp hhandshakeType]
    rfl
  · by_contra hne
    exact hdigest ((digest_check_iff hrandom).mpr hne)

/-! ## Messages -/

/-- A ClientHello in its record. -/
structure ClientHello where
  version : UInt8 × UInt8
  body : HelloBody
  fits : 4 + body.encode.length < 2 ^ 16

def ClientHello.encode (message : ClientHello) : Bytes :=
  tlsRecordHandshake :: message.version.1 :: message.version.2 ::
    (u16ToBeBytes (4 + message.body.encode.length) ++
      tlsHandshakeClientHello :: (u24ToBeBytes message.body.encode.length ++ message.body.encode))

theorem ClientHello.wraps (message : ClientHello) : Wraps message.encode message.body.encode :=
  ⟨⟨message.version, rfl⟩, message.fits⟩

theorem toNat_ofNat_of_lt {len : Nat} (hlen : len < 2 ^ 8) : (UInt8.ofNat len).toNat = len := by
  rw [UInt8.toNat_ofNat']
  omega

theorem HelloBody.split (body : HelloBody) :
    HelloSplit body.encode (body.version.toList ++ body.random.toList) body.sessionId
      body.cipherSuites body.compression body.extensions body.trailing
      (UInt8.ofNat body.sessionId.length) (UInt8.ofNat (body.cipherSuites.length >>> 8))
      (UInt8.ofNat body.cipherSuites.length) (UInt8.ofNat body.compression.length)
      (UInt8.ofNat (body.extensions.length >>> 8)) (UInt8.ofNat body.extensions.length) where
  bytes_eq := by simp [HelloBody.encode, u16ToBeBytes]
  front_length := by simp
  sessionId_length := (toNat_ofNat_of_lt body.sessionId_lt).symm
  suites_length := (u16FromBeBytes_u16ToBeBytes body.cipherSuites_lt).symm
  compression_length := (toNat_ofNat_of_lt body.compression_lt).symm
  extensions_length := (u16FromBeBytes_u16ToBeBytes body.extensions_lt).symm

theorem HelloSplits.body {bytes : Bytes} (hsplits : HelloSplits bytes) :
    ∃ body : HelloBody, body.encode = bytes := by
  obtain ⟨front, sessionId, suites, compression, extensions, trailing, sessionLen, suites0, suites1,
    compressionLen, extensions0, extensions1, hsplit, hsuites⟩ := hsplits
  obtain ⟨hbytes, hfront, hsession, hsuitesLen, hcompression, hextensions⟩ := hsplit
  refine ⟨⟨⟨front.take 2, by simp [hfront]⟩, ⟨front.drop 2, by simp [hfront]⟩, sessionId, suites,
    compression, extensions, trailing, ?_, hsuites, ?_, ?_, ?_⟩, ?_⟩
  · rw [hsession]
    exact sessionLen.toNat_lt
  · rw [hsuitesLen]
    exact u16FromBeBytes_lt suites0 suites1
  · rw [hcompression]
    exact compressionLen.toNat_lt
  · rw [hextensions]
    exact u16FromBeBytes_lt extensions0 extensions1
  · simp only [HelloBody.encode, List.Vector.toList_mk, List.take_append_drop, hsession,
      UInt8.ofNat_toNat, hsuitesLen, u16ToBeBytes_u16FromBeBytes, hcompression, hextensions]
    rw [hbytes]
    simp

/-- The random field of a message is at bytes 11..43. -/
theorem ClientHello.random_eq (message : ClientHello) :
    message.body.random.toList = (message.encode.drop 11).take 32 := by
  have hdrop : message.encode.drop 11 = message.body.encode.drop 2 := rfl
  rw [hdrop, message.body.split.bytes_eq, List.append_assoc, List.drop_left' (by simp),
    List.take_left' (by simp)]

/-- A signed message is accepted, and its blocks are returned. -/
theorem parseFaketlsClientHello_encode {hmac : Hmac} {secret : Bytes} {message : ClientHello}
    (width : PointerWidth) (hdigest : DigestMatches hmac message.encode secret)
    {hostname : Option String}
    (hhostname : parseSniExtension width message.body.extensions = .ok hostname) :
    parseFaketlsClientHello hmac width message.encode secret =
      .ok (some ⟨message.body.random, message.body.sessionId,
        selectTls13CipherSuite message.body.cipherSuites, hostname⟩) := by
  have hlength := message.body.split.length_eq
  have hsuites := message.body.cipherSuites_ge
  rw [parseFaketlsClientHello, verifyClientHello_wraps width message.wraps (by omega)
    message.random_eq hdigest, ok_bind]
  exact (message.body.split.parse hsuites width _).trans (by rw [hhostname]; rfl)

/-- Every other record is rejected. -/
theorem parseFaketlsClientHello_rejects (hmac : Hmac) (width : PointerWidth)
    (record secret : Bytes) :
    RejectsUnless (∃ message : ClientHello, record = message.encode ∧
      DigestMatches hmac record secret) (parseFaketlsClientHello hmac width record secret) := by
  unfold parseFaketlsClientHello
  rcases verifyClientHello_rejects hmac width record secret with
    hnone | ⟨bytes, hwraps, hlong, hdigest⟩
  · rw [hnone]
    exact .inl rfl
  · have hlength : 11 + 32 ≤ record.length := by
      obtain ⟨version, hrecord⟩ := hwraps.bytes_eq
      rw [hrecord]
      simp [u16ToBeBytes, u24ToBeBytes]
      omega
    obtain ⟨clientRandom, -, hrandom⟩ := blockAt_of_le hlength
    rw [verifyClientHello_wraps width hwraps hlong hrandom hdigest, ok_bind]
    rcases @parseClientHelloBody_rejects width clientRandom bytes (by have := hwraps.fits; omega)
      with hnone | hsplits
    · exact .inl hnone
    · obtain ⟨body, rfl⟩ := hsplits.body
      obtain ⟨version, hrecord⟩ := hwraps.bytes_eq
      exact .inr ⟨⟨version, body, hwraps.fits⟩, hrecord, hdigest⟩

/-- What an accepted hello has of the message it was read from. -/
theorem exists_message_of_parse {hmac : Hmac} {width : PointerWidth} {record secret : Bytes}
    {hello : FakeTlsClientHello}
    (hparse : parseFaketlsClientHello hmac width record secret = .ok (some hello)) :
    ∃ message : ClientHello, record = message.encode ∧ hello.random = message.body.random ∧
      hello.sessionId = message.body.sessionId := by
  rcases parseFaketlsClientHello_rejects hmac width record secret with
    hnone | ⟨message, rfl, hdigest⟩
  · rw [hnone] at hparse
    cases hparse
  · obtain ⟨hostname, hhostname, -⟩ := parseSniExtension_ok width message.body.extensions
    rw [parseFaketlsClientHello_encode width hdigest hhostname] at hparse
    cases hparse
    exact ⟨message, rfl, rfl, rfl⟩

/-- The parser returns on every input and accepts exactly the messages that are signed
with the secret. An accepted hello has the session id of the message, its first TLS
1.3 suite, and at most a host name from one of its server name extensions. -/
theorem parseFaketlsClientHello_format (hmac : Hmac) (width : PointerWidth)
    (record secret : Bytes) :
    (∃ result, parseFaketlsClientHello hmac width record secret = .ok result) ∧
      ((∃ hello, parseFaketlsClientHello hmac width record secret = .ok (some hello)) ↔
        ∃ message : ClientHello, record = message.encode ∧
          (record.drop 11).take 28 = (clientHelloDigest hmac record secret).toList.take 28) ∧
      ∀ hello (message : ClientHello),
        parseFaketlsClientHello hmac width record secret = .ok (some hello) →
        record = message.encode →
        hello.sessionId = message.body.sessionId ∧
          FirstTls13 message.body.cipherSuites hello.cipherSuite ∧
          ∀ hostname, hello.hostname = some hostname →
            NamedIn message.body.extensions hostname := by
  have haccept : ∀ message : ClientHello, record = message.encode →
      DigestMatches hmac record secret → ∃ hostname,
        parseFaketlsClientHello hmac width record secret =
          .ok (some ⟨message.body.random, message.body.sessionId,
            selectTls13CipherSuite message.body.cipherSuites, hostname⟩) ∧
        ∀ name, hostname = some name → NamedIn message.body.extensions name := by
    rintro message rfl hdigest
    obtain ⟨hostname, hhostname, hnamed⟩ := parseSniExtension_ok width message.body.extensions
    exact ⟨hostname, parseFaketlsClientHello_encode width hdigest hhostname, hnamed⟩
  refine ⟨?_, ⟨?_, ?_⟩, ?_⟩
  · rcases parseFaketlsClientHello_rejects hmac width record secret with
      hnone | ⟨message, hrecord, hdigest⟩
    · exact ⟨none, hnone⟩
    · obtain ⟨hostname, hparse, -⟩ := haccept message hrecord hdigest
      exact ⟨_, hparse⟩
  · rintro ⟨hello, hparse⟩
    rcases parseFaketlsClientHello_rejects hmac width record secret with hnone | hmessage
    · rw [hnone] at hparse
      cases hparse
    · exact hmessage
  · rintro ⟨message, hrecord, hdigest⟩
    obtain ⟨hostname, hparse, -⟩ := haccept message hrecord hdigest
    exact ⟨_, hparse⟩
  · intro hello message hparse hrecord
    have hdigest := (signed_of_parseFaketlsClientHello hparse).digest
    obtain ⟨hostname, haccepted, hnamed⟩ := haccept message hrecord hdigest
    rw [hparse] at haccepted
    cases haccepted
    exact ⟨rfl, selectTls13CipherSuite_first _, hnamed⟩

end TgWsProxy.FakeTls
