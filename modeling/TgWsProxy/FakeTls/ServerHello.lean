import TgWsProxy.FakeTls.Framing
import TgWsProxy.FakeTls.HelloRoundTrip

/-!
# The flight of the server and its drain

`build_faketls_server_hello` answers with three records, and the client side of
another proxy reads them with `drain_faketls_server_hello`. The flight is a stream
of records whose lengths add up, and the drain takes it off the wire to the last
byte and nothing behind it.
-/

namespace TgWsProxy.FakeTls

open Foundation.Machine Foundation.Stream TgWsProxy.Crypto

/-! ## The drain -/

def tlsRecordAlert : UInt8 := 0x15

def tlsMaxHandshakeRecords : Nat := 20

/-- The loop of `drain_faketls_server_hello`, for at most `left` more records. -/
def drainRecords : Nat → Source UInt8 → Bool × Source UInt8
  | 0, source => (false, source)
  | left + 1, source =>
      match source.readExact 5 with
      | (none, rest) => (false, rest)
      | (some header, rest) =>
          let recordType := header.getD 0 0
          let version := (header.getD 1 0, header.getD 2 0)
          if version ≠ tlsVersion12 then (false, rest)
          else if tlsMaxRecordPayload + 256 < payloadLen header then (false, rest)
          else
            match Source.readExact (payloadLen header) rest with
            | (none, rest) => (false, rest)
            | (some _, rest) =>
                if recordType = tlsRecordHandshake ∨ recordType = tlsRecordChangeCipherSpec then
                  drainRecords left rest
                else if recordType = tlsRecordApplicationData then (true, rest)
                else if recordType = tlsRecordAlert then (false, rest)
                else (false, rest)

def drainFaketlsServerHello (source : Source UInt8) : Bool × Source UInt8 :=
  drainRecords tlsMaxHandshakeRecords source

section Drain

variable {left : Nat} {source : Source UInt8} {record : Record} {back : Bytes}

/-- A record of TLS 1.2 that is not too long. -/
structure Drainable (record : Record) : Prop where
  version : record.version = tlsVersion12
  length_le : record.payload.length ≤ tlsMaxRecordPayload + 256

/-- A record that is taken off the wire as a whole; only its type decides what comes next. -/
theorem drainRecords_record (left : Nat) (hsource : source.elements = record.encode ++ back)
    (hrecord : Drainable record) :
    ∃ rest, Source.elements rest = back ∧ drainRecords (left + 1) source =
      if record.recordType = tlsRecordHandshake ∨
          record.recordType = tlsRecordChangeCipherSpec then drainRecords left rest
      else if record.recordType = tlsRecordApplicationData then (true, rest)
      else (false, rest) := by
  obtain ⟨middle, rest, hheader, hpayload, hrest⟩ := readExact_encode hsource
  refine ⟨rest, hrest, ?_⟩
  have hversion : (record.header.getD 1 0, record.header.getD 2 0) = tlsVersion12 :=
    hrecord.version
  have hroom : ¬ tlsMaxRecordPayload + 256 < record.payload.length :=
    Nat.not_lt.mpr hrecord.length_le
  simp only [drainRecords, hheader, hversion, ne_eq, not_true_eq_false, if_false,
    Record.payloadLen_header, hroom, hpayload, Record.header_getD_zero]
  -- An alert and a record of another type both end the drain without success.
  refine ite_congr rfl (fun _ => rfl) fun _ => ite_congr rfl (fun _ => rfl) fun _ => ?_
  exact ite_self _

theorem drainRecords_skip (left : Nat) (hsource : source.elements = record.encode ++ back)
    (hrecord : Drainable record) (htype : record.recordType = tlsRecordHandshake ∨
      record.recordType = tlsRecordChangeCipherSpec) :
    ∃ rest, Source.elements rest = back ∧
      drainRecords (left + 1) source = drainRecords left rest := by
  obtain ⟨rest, hrest, hdrain⟩ := drainRecords_record left hsource hrecord
  rw [if_pos htype] at hdrain
  exact ⟨rest, hrest, hdrain⟩

theorem drainRecords_stop (left : Nat) (hsource : source.elements = record.encode ++ back)
    (hrecord : Drainable record) (htype : record.recordType = tlsRecordApplicationData) :
    ∃ rest, Source.elements rest = back ∧ drainRecords (left + 1) source = (true, rest) := by
  obtain ⟨rest, hrest, hdrain⟩ := drainRecords_record left hsource hrecord
  have hother : ¬ (tlsRecordApplicationData = tlsRecordHandshake ∨
      tlsRecordApplicationData = tlsRecordChangeCipherSpec) := by decide
  rw [htype, if_neg hother, if_pos rfl] at hdrain
  exact ⟨rest, hrest, hdrain⟩

/-- The drain stops behind the first ApplicationData record. -/
theorem drainRecords_flight {before : List Record} {last : Record}
    (hbefore : ∀ record ∈ before, Drainable record ∧ (record.recordType = tlsRecordHandshake ∨
      record.recordType = tlsRecordChangeCipherSpec))
    (hlast : Drainable last) (htype : last.recordType = tlsRecordApplicationData)
    (hleft : before.length < left)
    (hsource : source.elements = wire (before ++ [last]) ++ back) :
    ∃ rest, Source.elements rest = back ∧ drainRecords left source = (true, rest) := by
  induction before generalizing left source with
  | nil =>
      cases left with
      | zero => cases hleft
      | succ left =>
          have hsource' : source.elements = last.encode ++ back := by simpa [wire] using hsource
          exact drainRecords_stop left hsource' hlast htype
  | cons record before ih =>
      cases left with
      | zero => cases hleft
      | succ left =>
          obtain ⟨⟨hrecord, hskip⟩, hbefore⟩ := List.forall_mem_cons.mp hbefore
          rw [List.cons_append, wire, List.flatMap_cons, List.append_assoc] at hsource
          obtain ⟨middle, hmiddle, hdrain⟩ := drainRecords_skip left hsource hrecord hskip
          rw [hdrain]
          exact ih hbefore (Nat.lt_of_succ_lt_succ hleft) hmiddle

end Drain

/-! ## The flight -/

/-- The extensions of the ServerHello: TLS 1.3 and a key share. -/
def supportedVersions : Extension := ⟨(0x00, 0x2b), [0x03, 0x04], by decide⟩

def keyShareExtension (keyShare : Block 32) : Extension where
  extType := (0x00, 0x33)
  body := [0x00, 0x1d] ++ u16ToBeBytes keyShare.toList.length ++ keyShare.toList
  fits := by simp [u16ToBeBytes]

def serverExtensions (keyShare : Block 32) : Bytes :=
  supportedVersions.encode ++ (keyShareExtension keyShare).encode

/-- The body of a ServerHello that echoes the session id and answers with the suite. -/
def serverHelloBody (random : Block 32) (hello : FakeTlsClientHello) (keyShare : Block 32) :
    Bytes :=
  [tlsVersion12.1, tlsVersion12.2] ++ random.toList ++
    [UInt8.ofNat hello.sessionId.length] ++ hello.sessionId ++
    [hello.cipherSuite.1, hello.cipherSuite.2] ++ [0x00] ++
    u16ToBeBytes (serverExtensions keyShare).length ++ serverExtensions keyShare

theorem serverHelloBody_length (random : Block 32) (hello : FakeTlsClientHello)
    (keyShare : Block 32) :
    (serverHelloBody random hello keyShare).length = 86 + hello.sessionId.length := by
  simp [serverHelloBody, serverExtensions, supportedVersions, keyShareExtension, Extension.encode,
    u16ToBeBytes]
  omega

theorem serverHelloPayload_length (random : Block 32) (hello : FakeTlsClientHello)
    (keyShare : Block 32) :
    (tlsHandshakeServerHello :: (u24ToBeBytes (serverHelloBody random hello keyShare).length ++
      serverHelloBody random hello keyShare)).length = 4 + (86 + hello.sessionId.length) := by
  simp only [List.length_cons, List.length_append, serverHelloBody_length, u24ToBeBytes,
    List.length_nil]
  omega

def serverHelloRecord (hello : FakeTlsClientHello) (keyShare : Block 32)
    (hsession : hello.sessionId.length < 2 ^ 8) (random : Block 32) : Record where
  recordType := tlsRecordHandshake
  version := tlsVersion12
  payload := tlsHandshakeServerHello ::
    (u24ToBeBytes (serverHelloBody random hello keyShare).length ++
      serverHelloBody random hello keyShare)
  fits := by
    rw [serverHelloPayload_length]
    omega

def changeCipherSpecRecord : Record :=
  ⟨tlsRecordChangeCipherSpec, tlsVersion12, [tlsChangeCipherSpecValue], by decide⟩

/-- The three records of the answer. -/
def serverFlight (hello : FakeTlsClientHello) (keyShare : Block 32) (cert : Bytes)
    (hsession : hello.sessionId.length < 2 ^ 8) (hcert : cert.length < 2 ^ 16)
    (random : Block 32) : List Record :=
  [serverHelloRecord hello keyShare hsession random, changeCipherSpecRecord,
    appdataRecord cert hcert]

section Flight

variable (hello : FakeTlsClientHello) (keyShare : Block 32) (cert : Bytes)
  (hsession : hello.sessionId.length < 2 ^ 8) (hcert : cert.length < 2 ^ 16)

theorem serverHelloRecord_encode (random : Block 32) :
    (serverHelloRecord hello keyShare hsession random).encode =
      tlsRecordHeader tlsRecordHandshake (4 + (86 + hello.sessionId.length)) ++
        tlsHandshakeServerHello :: (u24ToBeBytes (86 + hello.sessionId.length) ++
          serverHelloBody random hello keyShare) := by
  have hlength : (serverHelloRecord hello keyShare hsession random).payload.length =
      4 + (86 + hello.sessionId.length) := serverHelloPayload_length random hello keyShare
  rw [Record.encode, Record.header, hlength]
  simp only [serverHelloRecord, serverHelloBody_length]
  rfl

/-- Flights that differ in the random field only agree before and behind it. -/
theorem exists_around_server_random :
    ∃ front back, front.length = 11 ∧ ∀ random,
      wire (serverFlight hello keyShare cert hsession hcert random) =
        front ++ (random.toList ++ back) := by
  refine ⟨tlsRecordHeader tlsRecordHandshake (4 + (86 + hello.sessionId.length)) ++
    (tlsHandshakeServerHello :: u24ToBeBytes (86 + hello.sessionId.length)) ++
      [tlsVersion12.1, tlsVersion12.2],
    [UInt8.ofNat hello.sessionId.length] ++ hello.sessionId ++
      [hello.cipherSuite.1, hello.cipherSuite.2] ++ [0x00] ++
      u16ToBeBytes (serverExtensions keyShare).length ++ serverExtensions keyShare ++
      changeCipherSpecRecord.encode ++ (appdataRecord cert hcert).encode, rfl, fun random => ?_⟩
  rw [wire, serverFlight, List.flatMap_cons, List.flatMap_cons, List.flatMap_cons,
    List.flatMap_nil, serverHelloRecord_encode, serverHelloBody]
  simp

/-- The hand-counted lengths are those of the records. -/
theorem unsignedServerHello_eq :
    unsignedServerHello hello keyShare cert =
      wire (serverFlight hello keyShare cert hsession hcert (List.Vector.replicate 32 0)) := by
  have hextensions : u16ToBeBytes (serverExtensions keyShare).length ++ serverExtensions keyShare =
      [0x00, 0x2e, 0x00, 0x2b, 0x00, 0x02, 0x03, 0x04, 0x00, 0x33, 0x00, 0x24, 0x00, 0x1d, 0x00,
        0x20] ++ keyShare.toList := by
    simp [serverExtensions, supportedVersions, keyShareExtension, Extension.encode, u16ToBeBytes]
  rw [wire, serverFlight, List.flatMap_cons, List.flatMap_cons, List.flatMap_cons,
    List.flatMap_nil, serverHelloRecord_encode, serverHelloBody, List.append_assoc _ _
      (serverExtensions keyShare), hextensions, unsignedServerHello]
  simp [tlsRecordHeader, u24ToBeBytes, Record.encode, Record.header, changeCipherSpecRecord,
    appdataRecord, tlsDigestLen]

/-- The answer is the flight with the digest as its random field. -/
theorem serverHello_eq (hmac : Hmac) (secret : Bytes) :
    serverHello hmac secret hello keyShare cert =
      wire (serverFlight hello keyShare cert hsession hcert
        (hmac secret (hello.random.toList ++
          wire (serverFlight hello keyShare cert hsession hcert
            (List.Vector.replicate 32 0))))) := by
  obtain ⟨front, back, hfront, hflight⟩ :=
    exists_around_server_random hello keyShare cert hsession hcert
  rw [serverHello, unsignedServerHello_eq hello keyShare cert hsession hcert, hflight, hflight]
  exact overwrite_eq rfl hfront.symm (by simp)

/-- The random field of the answer, and the answer without it. -/
theorem serverFlight_random (random : Block 32) :
    ((wire (serverFlight hello keyShare cert hsession hcert random)).drop 11).take 32 =
        random.toList ∧
      overwrite (wire (serverFlight hello keyShare cert hsession hcert random)) 11
          (List.replicate 32 0) =
        wire (serverFlight hello keyShare cert hsession hcert (List.Vector.replicate 32 0)) := by
  obtain ⟨front, back, hfront, hflight⟩ :=
    exists_around_server_random hello keyShare cert hsession hcert
  rw [hflight, hflight]
  refine ⟨?_, overwrite_eq rfl hfront.symm (by simp)⟩
  rw [List.drop_left' hfront, List.take_left' (by simp)]

end Flight

theorem certLen_le (random : UInt32) : certLen random ≤ 4115 := by
  unfold certLen
  omega

/-- The answer to a hello that was accepted is a flight of three records with matching
lengths, the echoed session id and suite, and the digest in its random field; and the
drain of the other side reads exactly that flight, whatever follows it on the wire. -/
theorem server_hello_drained {hmac : Hmac} {width : PointerWidth} {record clientSecret : Bytes}
    {hello : FakeTlsClientHello} {cert : Bytes} {random : UInt32}
    (hparse : parseFaketlsClientHello hmac width record clientSecret = .ok (some hello))
    (hcert : cert.length = certLen random) (secret : Bytes) (keyShare : Block 32) :
    ∃ handshake changeCipherSpec certificate : Record,
      serverHello hmac secret hello keyShare cert =
        wire [handshake, changeCipherSpec, certificate] ∧
      handshake.recordType = tlsRecordHandshake ∧
      changeCipherSpec.recordType = tlsRecordChangeCipherSpec ∧
      certificate.recordType = tlsRecordApplicationData ∧
      (∀ record ∈ [handshake, changeCipherSpec, certificate], record.version = tlsVersion12) ∧
      (∃ serverRandom, (serverHelloBody serverRandom hello keyShare).length < 2 ^ 24 ∧
        handshake.payload = tlsHandshakeServerHello ::
          (u24ToBeBytes (serverHelloBody serverRandom hello keyShare).length ++
            serverHelloBody serverRandom hello keyShare)) ∧
      (UInt8.ofNat hello.sessionId.length).toNat = hello.sessionId.length ∧
      ((serverHello hmac secret hello keyShare cert).drop 11).take 32 =
        (hmac secret (hello.random.toList ++
          overwrite (serverHello hmac secret hello keyShare cert) 11
            (List.replicate 32 0))).toList ∧
      ∀ source rest, Source.elements source = serverHello hmac secret hello keyShare cert ++ rest →
        ∃ after, drainFaketlsServerHello source = (true, after) ∧ Source.elements after = rest := by
  obtain ⟨message, -, -, hsessionId⟩ := exists_message_of_parse hparse
  have hsession : hello.sessionId.length < 2 ^ 8 := hsessionId ▸ message.body.sessionId_lt
  have hcertLe := certLen_le random
  have hcertLt : cert.length < 2 ^ 16 := by omega
  obtain ⟨digest, hdigest⟩ : ∃ digest, digest = hmac secret (hello.random.toList ++
    wire (serverFlight hello keyShare cert hsession hcertLt (List.Vector.replicate 32 0))) :=
    ⟨_, rfl⟩
  have hanswer : serverHello hmac secret hello keyShare cert =
      wire (serverFlight hello keyShare cert hsession hcertLt digest) :=
    hdigest ▸ serverHello_eq hello keyShare cert hsession hcertLt hmac secret
  obtain ⟨hrandom, hzeroed⟩ := serverFlight_random hello keyShare cert hsession hcertLt digest
  refine ⟨serverHelloRecord hello keyShare hsession digest, changeCipherSpecRecord,
    appdataRecord cert hcertLt, hanswer, rfl, rfl, rfl, ?_, ⟨digest, ?_, rfl⟩,
    toNat_ofNat_of_lt hsession, ?_, ?_⟩
  · intro record hmem
    simp only [List.mem_cons, List.not_mem_nil, or_false] at hmem
    rcases hmem with rfl | rfl | rfl <;> rfl
  · rw [serverHelloBody_length]
    omega
  · rw [hanswer, hzeroed, hrandom, hdigest]
  · intro source rest hsource
    rw [hanswer] at hsource
    have hfirst : Drainable (serverHelloRecord hello keyShare hsession digest) := by
      refine ⟨rfl, ?_⟩
      rw [serverHelloRecord, serverHelloPayload_length, tlsMaxRecordPayload]
      omega
    have hbefore : ∀ record ∈ [serverHelloRecord hello keyShare hsession digest,
        changeCipherSpecRecord], Drainable record ∧ (record.recordType = tlsRecordHandshake ∨
          record.recordType = tlsRecordChangeCipherSpec) := by
      simp only [List.forall_mem_cons, List.not_mem_nil, false_imp_iff, implies_true, and_true]
      exact ⟨⟨hfirst, .inl rfl⟩, ⟨rfl, by decide⟩, .inr rfl⟩
    have hlast : Drainable (appdataRecord cert hcertLt) := by
      refine ⟨rfl, ?_⟩
      rw [appdataRecord, hcert, tlsMaxRecordPayload]
      omega
    obtain ⟨after, hafter, hdrain⟩ := @drainRecords_flight tlsMaxHandshakeRecords source rest
      [serverHelloRecord hello keyShare hsession digest, changeCipherSpecRecord]
      (appdataRecord cert hcertLt)
      hbefore hlast rfl (Nat.lt_of_sub_eq_succ rfl) hsource
    exact ⟨after, hdrain, hafter⟩

theorem server_hello_drained_example :
    ∃ record hello, parseFaketlsClientHello (fun _ _ => List.Vector.replicate 32 1) .bits32 record
        [1, 2] = .ok (some hello) ∧
      ∀ source, Source.elements source =
          serverHello (fun _ _ => List.Vector.replicate 32 1) [1, 2] hello
            (List.Vector.replicate 32 5) (List.replicate 1024 6) ++ [8, 9] →
        ∃ after, drainFaketlsServerHello source = (true, after) ∧
          Source.elements after = [8, 9] := by
  have hfits : helloHandshakeLen "example.com" < 2 ^ 16 := by
    rw [helloHandshakeLen_eq]
    decide
  have hparse := parseFaketlsClientHello_encode .bits32
    (digestMatches_sign (fun _ _ => List.Vector.replicate 32 1) 0x6553f100
      (builtHello "example.com" (List.Vector.replicate 32 7) hfits) [1, 2])
    (parseSniExtension_built .bits32 "example.com" (List.Vector.replicate 32 7) hfits)
  obtain ⟨_, _, _, -, -, -, -, -, -, -, -, hdrain⟩ :=
    @server_hello_drained _ _ _ _ _ (List.replicate 1024 6) 0 hparse List.length_replicate
      [1, 2] (List.Vector.replicate 32 5)
  exact ⟨_, _, hparse, fun source hsource => hdrain source [8, 9] hsource⟩

end TgWsProxy.FakeTls
