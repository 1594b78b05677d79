import TgWsProxy.FakeTls.Records
import TgWsProxy.Foundation.Machine

/-!
# The hello messages

`build_faketls_client_hello` and `sign_faketls_client_hello` make the ClientHello
toward an upstream proxy, `parse_faketls_client_hello` accepts one that is signed
with a secret, and `build_faketls_server_hello` answers it. HMAC-SHA256 enters as a
keyed function. A slice or an index outside its bytes and a sum outside its integer
type would abort the task: they are faults, apart from a rejected hello.
-/

namespace TgWsProxy.FakeTls

open Foundation.Machine TgWsProxy.Crypto

/-- `HMAC-SHA256(key, message)`. -/
abbrev Hmac := Bytes → Bytes → Block 32

/-- The ways a call could abort. -/
inductive Fault
  | outOfRange
  | overflow
  deriving DecidableEq, Repr

/-- `bytes[index]`. -/
def byteAt (bytes : Bytes) (index : Nat) : Except Fault UInt8 :=
  match bytes[index]? with
  | some byte => .ok byte
  | none => .error .outOfRange

/-- `bytes[start..stop]`. -/
def sliceAt (bytes : Bytes) (start stop : Nat) : Except Fault Bytes :=
  if start ≤ stop ∧ stop ≤ bytes.length then .ok (bytes.extract start stop)
  else .error .outOfRange

/-- `bytes[start..start + len]` as an array. -/
def blockAt (bytes : Bytes) (start len : Nat) : Except Fault (Block len) :=
  if hbound : start + len ≤ bytes.length then
    .ok ⟨(bytes.drop start).take len, by simp only [List.length_take, List.length_drop]; omega⟩
  else .error .outOfRange

/-- `usize` addition from the left. -/
def usizeSum (width : PointerWidth) (first : Nat) : List Nat → Except Fault Nat
  | [] => .ok first
  | second :: rest =>
      match width.checkedAdd first second with
      | some sum => usizeSum width sum rest
      | none => .error .overflow

/-- The version in the record layer of a ClientHello. -/
def tlsRecordVersion : UInt8 × UInt8 := (0x03, 0x01)

def tlsDigestPos : Nat := 11
def tlsDigestLen : Nat := 32
def tlsHandshakeClientHello : UInt8 := 0x01
def tlsHandshakeServerHello : UInt8 := 0x02
def tlsClientRandomOffsetInHandshake : Nat := 6
def tlsServerRandomOffsetInPacket : Nat := 11
def tlsChangeCipherSpecValue : UInt8 := 0x01

structure FakeTlsClientHello where
  random : Block 32
  sessionId : Bytes
  cipherSuite : UInt8 × UInt8
  hostname : Option String

/-- The bytes with those from `start` on replaced by the patch. -/
def overwrite (bytes : Bytes) (start : Nat) (patch : Bytes) : Bytes :=
  bytes.take start ++ patch ++ bytes.drop (start + patch.length)

/-! ## Making a ClientHello -/

/-- The bytes of a text in UTF-8. -/
def utf8Bytes (text : String) : Bytes := text.toUTF8.data.toList

/-- `u16` addition. -/
def u16Sum (left right : Nat) : Except Fault Nat :=
  if left + right < 2 ^ 16 then .ok (left + right) else .error .overflow

/-- `u32::to_le_bytes`. -/
def u32ToLeBytes (value : UInt32) : Bytes :=
  [value.toUInt8, (value >>> 8).toUInt8, (value >>> 16).toUInt8, (value >>> 24).toUInt8]

def fixedExtensions : Bytes :=
  -- extended_master_secret, renegotiation_info
  [0x00, 0x17, 0x00, 0x00,
    0xff, 0x01, 0x00, 0x01, 0x00,
    -- supported_groups
    0x00, 0x0a, 0x00, 0x0a, 0x00, 0x08,
    0x00, 0x1d, 0x00, 0x17, 0x00, 0x18, 0x00, 0x19,
    -- ec_point_formats, session_ticket
    0x00, 0x0b, 0x00, 0x02, 0x01, 0x00,
    0x00, 0x23, 0x00, 0x00,
    -- signature_algorithms
    0x00, 0x0d, 0x00, 0x14, 0x00, 0x12,
    0x04, 0x03, 0x08, 0x04, 0x04, 0x01,
    0x05, 0x03, 0x08, 0x05, 0x05, 0x01,
    0x08, 0x06, 0x06, 0x01, 0x02, 0x01]

def offeredCipherSuites : Bytes :=
  [0x13, 0x01, 0x13, 0x02, 0x13, 0x03,
    0xc0, 0x2b, 0xc0, 0x2f, 0xc0, 0x2c, 0xc0, 0x30,
    0xcc, 0xa9, 0xcc, 0xa8,
    0xc0, 0x13, 0xc0, 0x14,
    0x00, 0x9c, 0x00, 0x9d, 0x00, 0x2f, 0x00, 0x35, 0x00, 0x0a]

/-- The record for a host name and a random session id, with its `random` field
zeroed. -/
def buildFaketlsClientHello (hostname : String) (sessionId : Block 32) : Except Fault Bytes := do
  let host := utf8Bytes hostname
  let hostLen := host.length % 2 ^ 16
  let sniListLen ← u16Sum 3 hostLen
  let sniDataLen ← u16Sum 2 sniListLen
  let extensionsLen := 4 + sniDataLen + fixedExtensions.length
  let helloLen := 2 + 32 + 1 + 32 + 2 + offeredCipherSuites.length + 2 + 2 + extensionsLen
  let handshakeLen := 4 + helloLen
  return [tlsRecordHandshake] ++
    [tlsRecordVersion.1, tlsRecordVersion.2] ++
    u16ToBeBytes handshakeLen ++
    [tlsHandshakeClientHello] ++
    [UInt8.ofNat (helloLen >>> 16), UInt8.ofNat (helloLen >>> 8), UInt8.ofNat helloLen] ++
    [tlsVersion12.1, tlsVersion12.2] ++
    List.replicate 32 0 ++
    [UInt8.ofNat sessionId.toList.length] ++
    sessionId.toList ++
    u16ToBeBytes offeredCipherSuites.length ++
    offeredCipherSuites ++
    [0x01, 0x00] ++
    u16ToBeBytes extensionsLen ++
    u16ToBeBytes 0x0000 ++
    u16ToBeBytes sniDataLen ++
    u16ToBeBytes sniListLen ++
    [0x00] ++
    u16ToBeBytes hostLen ++
    host ++
    fixedExtensions

/-- Fill the `random` field with the digest, its last four bytes XORed with the time. -/
def signFaketlsClientHello (hmac : Hmac) (timestamp : UInt32) (record secret : Bytes) :
    Except Fault Bytes :=
  if record.length < tlsDigestPos + tlsDigestLen then .error .outOfRange
  else
    let record := overwrite record tlsDigestPos (List.replicate tlsDigestLen 0)
    let computed := (hmac secret record).toList
    let record := overwrite record tlsDigestPos (computed.take 28)
    .ok (overwrite record (tlsDigestPos + 28)
      (List.zipWith (· ^^^ ·) (computed.drop 28) (u32ToLeBytes timestamp)))

/-! ## Accepting a ClientHello -/

/-- The first TLS 1.3 suite among the aligned pairs. -/
def selectTls13CipherSuite : Bytes → UInt8 × UInt8
  | high :: low :: rest =>
      if high = 0x13 ∧ 0x01 ≤ low ∧ low ≤ 0x03 then (high, low) else selectTls13CipherSuite rest
  | _ => (0x13, 0x01)

/-- The host name of a server name extension of at least five bytes. -/
def parseServerName (width : PointerWidth) (ext : Bytes) : Except Fault (Option String) := do
  let listLen := u16FromBeBytes (← byteAt ext 0) (← byteAt ext 1)
  if ext.length < (← usizeSum width 2 [listLen]) then return none
  if listLen < 3 then return none
  if (← byteAt ext 2) ≠ 0 then return none
  let hostLen := u16FromBeBytes (← byteAt ext 3) (← byteAt ext 4)
  let hostEnd ← usizeSum width 5 [hostLen]
  if ext.length < hostEnd then return none
  let host ← sliceAt ext 5 hostEnd
  return String.fromUTF8? ⟨host.toArray⟩

/-- The loop over the extensions. -/
def parseSniExtension (width : PointerWidth) : Bytes → Except Fault (Option String)
  | type0 :: type1 :: len0 :: len1 :: rest =>
      let extType := u16FromBeBytes type0 type1
      let extLen := u16FromBeBytes len0 len1
      if rest.length < extLen then .ok none
      else
        let ext := rest.take extLen
        if extType ≠ 0x0000 ∨ ext.length < 5 then parseSniExtension width (rest.drop extLen)
        else parseServerName width ext
  | _ => .ok none
termination_by extensions => extensions.length
decreasing_by
  simp only [List.length_drop, List.length_cons]
  omega

/-- The digest of a record with its `random` field zeroed. -/
def clientHelloDigest (hmac : Hmac) (record secret : Bytes) : Block 32 :=
  hmac secret (overwrite record (5 + tlsClientRandomOffsetInHandshake)
    (List.replicate tlsDigestLen 0))

/-- The first half of `parse_faketls_client_hello`: the types, the lengths and the
digest; `random` and the body of the handshake are left. -/
def verifyClientHello (hmac : Hmac) (width : PointerWidth) (record secret : Bytes) :
    Except Fault (Option (Block 32 × Bytes)) := do
  if record.length < 5 + 4 + tlsClientRandomOffsetInHandshake + tlsDigestLen then return none
  if (← byteAt record 0) ≠ tlsRecordHandshake then return none
  let recordLen := u16FromBeBytes (← byteAt record 3) (← byteAt record 4)
  if record.length ≠ (← usizeSum width 5 [recordLen]) then return none
  let handshake ← sliceAt record 5 record.length
  if handshake.length < 4 then return none
  if (← byteAt handshake 0) ≠ tlsHandshakeClientHello then return none
  let handshakeLen := (← byteAt handshake 1).toNat <<< 16 ||| (← byteAt handshake 2).toNat <<< 8 |||
    (← byteAt handshake 3).toNat
  if handshake.length ≠ (← usizeSum width 4 [handshakeLen]) then return none
  let clientRandom ← blockAt record (5 + tlsClientRandomOffsetInHandshake) tlsDigestLen
  let computed := clientHelloDigest hmac record secret
  let xored := List.zipWith (· ^^^ ·) computed.toList clientRandom.toList
  -- The last four bytes carry the time of the client and are not compared.
  if (xored.take 28).any (· ≠ 0) then return none
  let body ← sliceAt handshake 4 handshake.length
  return some (clientRandom, body)

/-- The second half: the session id, the suite and the extensions in the body. -/
def parseClientHelloBody (width : PointerWidth) (clientRandom : Block 32) (body : Bytes) :
    Except Fault (Option FakeTlsClientHello) := do
  if body.length < 2 + 32 + 1 then return none
  let sessionIdLen := (← byteAt body 34).toNat
  let sessionStart := 35
  let sessionEnd ← usizeSum width sessionStart [sessionIdLen]
  if body.length < (← usizeSum width sessionEnd [2]) then return none
  let sessionId ← sliceAt body sessionStart sessionEnd
  let cipherSuitesLen :=
    u16FromBeBytes (← byteAt body sessionEnd) (← byteAt body (← usizeSum width sessionEnd [1]))
  if cipherSuitesLen < 2 then return none
  if body.length < (← usizeSum width sessionEnd [2, cipherSuitesLen, 1]) then return none
  let suitesStart ← usizeSum width sessionEnd [2]
  let suitesEnd ← usizeSum width sessionEnd [2, cipherSuitesLen]
  let cipherSuite := selectTls13CipherSuite (← sliceAt body suitesStart suitesEnd)
  match body[suitesEnd]? with
  | none => return none
  | some compressionLen =>
      let p ← usizeSum width suitesEnd [← usizeSum width 1 [compressionLen.toNat]]
      if body.length < (← usizeSum width p [2]) then return none
      let extensionsLen :=
        u16FromBeBytes (← byteAt body p) (← byteAt body (← usizeSum width p [1]))
      let p ← usizeSum width p [2]
      let extensionsEnd ← usizeSum width p [extensionsLen]
      if body.length < extensionsEnd then return none
      let hostname ← parseSniExtension width (← sliceAt body p extensionsEnd)
      return some { random := clientRandom, sessionId, cipherSuite, hostname }

def parseFaketlsClientHello (hmac : Hmac) (width : PointerWidth) (record secret : Bytes) :
    Except Fault (Option FakeTlsClientHello) := do
  match ← verifyClientHello hmac width record secret with
  | none => return none
  | some (clientRandom, body) => parseClientHelloBody width clientRandom body

/-! ## What the digest proves -/

/-- A ClientHello that is signed with the secret. -/
structure SignedClientHello (hmac : Hmac) (record secret : Bytes) : Prop where
  recordType : record[0]? = some tlsRecordHandshake
  handshakeType : record[5]? = some tlsHandshakeClientHello
  digest : (record.drop 11).take 28 = (clientHelloDigest hmac record secret).toList.take 28

theorem eq_of_zipWith_xor {left right : Bytes} (hlength : left.length = right.length)
    (hzero : ∀ byte ∈ List.zipWith (· ^^^ ·) left right, byte = 0) : left = right := by
  induction left generalizing right with
  | nil => exact (List.length_eq_zero_iff.mp hlength.symm).symm
  | cons head left ih =>
      cases right with
      | nil => cases hlength
      | cons other right =>
          obtain ⟨hhead, htail⟩ := List.forall_mem_cons.mp hzero
          rw [UInt8.xor_eq_zero_iff.mp hhead, ih (Nat.succ.inj hlength) htail]

theorem byteAt_eq_ok {bytes : Bytes} {index : Nat} {byte : UInt8}
    (hbyte : byteAt bytes index = .ok byte) : bytes[index]? = some byte := by
  unfold byteAt at hbyte
  split at hbyte
  next found hfound =>
    cases hbyte
    exact hfound
  next => cases hbyte

theorem blockAt_eq_ok {bytes : Bytes} {start len : Nat} {block : Block len}
    (hblock : blockAt bytes start len = .ok block) :
    block.toList = (bytes.drop start).take len := by
  unfold blockAt at hblock
  split at hblock
  next =>
    cases hblock
    rfl
  next => cases hblock

theorem sliceAt_eq_ok {bytes slice : Bytes} {start : Nat}
    (hslice : sliceAt bytes start bytes.length = .ok slice) : slice = bytes.drop start := by
  unfold sliceAt at hslice
  split at hslice
  next =>
    cases hslice
    rw [List.extract_eq_take_drop, List.take_of_length_le (by simp)]
  next => cases hslice

theorem bind_eq_ok {α β : Type} {first : Except Fault α} {next : α → Except Fault β} {result : β} :
    (first >>= next) = .ok result ↔ ∃ value, first = .ok value ∧ next value = .ok result := by
  cases first with
  | error fault =>
      constructor
      · intro heq
        cases heq
      · rintro ⟨_, heq, -⟩
        cases heq
  | ok value => simp [bind, Except.bind]

/-- A check did not reject when something was returned. -/
theorem reject_eq_some {α : Type} {check : Prop} [Decidable check]
    {next : Except Fault (Option α)} {result : α} :
    (if check then pure none else next) = .ok (some result) ↔
      ¬ check ∧ next = .ok (some result) := by
  split
  next hcheck => simp [hcheck, pure, Except.pure]
  next hcheck => simp [hcheck]

theorem signed_of_verifyClientHello {hmac : Hmac} {width : PointerWidth} {record secret : Bytes}
    {verified : Block 32 × Bytes}
    (hverify : verifyClientHello hmac width record secret = .ok (some verified)) :
    SignedClientHello hmac record secret := by
  simp only [verifyClientHello, bind_eq_ok, reject_eq_some, Decidable.not_not] at hverify
  obtain ⟨-, _, hrecordType, rfl, -, -, -, -, -, -, -, handshake, hhandshake, -,
    _, hhandshakeType, rfl, -, -, -, -, -, -, -, -, -, clientRandom, hrandom, hxored, -⟩ := hverify
  obtain rfl := sliceAt_eq_ok hhandshake
  refine ⟨byteAt_eq_ok hrecordType, ?_, ?_⟩
  · have hfirst := byteAt_eq_ok hhandshakeType
    rwa [List.getElem?_drop] at hfirst
  · have hlist : clientRandom.toList = (record.drop 11).take 32 := blockAt_eq_ok hrandom
    have hfirst : (record.drop 11).take 28 = clientRandom.toList.take 28 := by
      rw [hlist, List.take_take]
      rfl
    rw [hfirst]
    have hlength : ((clientHelloDigest hmac record secret).toList.take 28).length =
        (clientRandom.toList.take 28).length := by
      rw [List.length_take, List.length_take, List.Vector.toList_length, List.Vector.toList_length]
      rfl
    refine (eq_of_zipWith_xor hlength ?_).symm
    intro byte hmem
    rw [← List.take_zipWith] at hmem
    by_contra hbyte
    exact hxored (List.any_eq_true.mpr ⟨byte, hmem, decide_eq_true hbyte⟩)

/-- A hello is accepted under a secret only if it is signed with it. -/
theorem signed_of_parseFaketlsClientHello {hmac : Hmac} {width : PointerWidth}
    {record secret : Bytes} {hello : FakeTlsClientHello}
    (hparse : parseFaketlsClientHello hmac width record secret = .ok (some hello)) :
    SignedClientHello hmac record secret := by
  rw [parseFaketlsClientHello, bind_eq_ok] at hparse
  obtain ⟨verified, hverify, hparse⟩ := hparse
  cases verified with
  | none => cases hparse
  | some verified => exact signed_of_verifyClientHello hverify

/-! ## The ServerHello -/

/-- `push_tls_record_header`. -/
def tlsRecordHeader (recordType : UInt8) (payloadLen : Nat) : Bytes :=
  recordType :: tlsVersion12.1 :: tlsVersion12.2 :: u16ToBeBytes payloadLen

/-- The length of the certificate, from one random number. -/
def certLen (random : UInt32) : Nat := 1024 + random.toNat % 3092

/-- `build_faketls_server_hello` on what it drew at random, before the digest is
filled in. -/
def unsignedServerHello (hello : FakeTlsClientHello) (keyShare : Block 32) (cert : Bytes) :
    Bytes :=
  let serverBodyLen := 86 + hello.sessionId.length
  let handshakeLen := 4 + serverBodyLen
  tlsRecordHeader tlsRecordHandshake handshakeLen ++
    [tlsHandshakeServerHello] ++
    [UInt8.ofNat (serverBodyLen >>> 16), UInt8.ofNat (serverBodyLen >>> 8),
      UInt8.ofNat serverBodyLen] ++
    [tlsVersion12.1, tlsVersion12.2] ++
    List.replicate tlsDigestLen 0 ++
    [UInt8.ofNat hello.sessionId.length] ++
    hello.sessionId ++
    [hello.cipherSuite.1, hello.cipherSuite.2] ++
    [0x00, 0x00, 0x2e, 0x00, 0x2b, 0x00, 0x02, 0x03, 0x04, 0x00, 0x33, 0x00, 0x24, 0x00, 0x1d,
      0x00, 0x20] ++
    keyShare.toList ++
    tlsRecordHeader tlsRecordChangeCipherSpec 1 ++
    [tlsChangeCipherSpecValue] ++
    tlsRecordHeader tlsRecordApplicationData cert.length ++
    cert

def serverHello (hmac : Hmac) (secret : Bytes) (hello : FakeTlsClientHello) (keyShare : Block 32)
    (cert : Bytes) : Bytes :=
  let packet := unsignedServerHello hello keyShare cert
  let digest := hmac secret (hello.random.toList ++ packet)
  overwrite packet tlsServerRandomOffsetInPacket digest.toList

end TgWsProxy.FakeTls
