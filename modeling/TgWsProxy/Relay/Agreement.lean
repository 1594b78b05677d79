import TgWsProxy.Client.Admission
import TgWsProxy.Relay.Model

/-!
# A proxy as the client of another one

One instance connects to the listener of another. What the first one writes is what the
second one reads, and the other way round, in whatever pieces; no write fails. Then
both come out of the handshake with the same session.
-/

namespace TgWsProxy.Relay

open Foundation.Effect Foundation.Machine Foundation.Stream
open TgWsProxy.Crypto TgWsProxy.FakeTls TgWsProxy.Client
open Foundation.Effect.Program (Runs)
open Foundation.Hex (Codec)

/-! ## The hello -/

section Hello

variable {hmac : Hmac} (width : PointerWidth)

/-- The message that a proxy signs for the hostname. -/
def signedMessage (hmac : Hmac) (secret : Bytes) (hostname : String) (sessionId : Block 32)
    (timestamp : UInt32) (hfits : helloHandshakeLen hostname < 2 ^ 16) : ClientHello :=
  (builtHello hostname sessionId hfits).withRandom (signature hmac timestamp
    ((builtHello hostname sessionId hfits).withRandom (List.Vector.replicate 32 0)).encode secret)

theorem signedHello_eq (secret : Bytes) (hostname : String) (sessionId : Block 32)
    (timestamp : UInt32) (hfits : helloHandshakeLen hostname < 2 ^ 16) :
    signedHello hmac secret hostname sessionId timestamp =
      .ok (signedMessage hmac secret hostname sessionId timestamp hfits).encode := by
  rw [signedHello, buildFaketlsClientHello_eq hostname sessionId hfits, ok_bind]
  exact signFaketlsClientHello_encode hmac timestamp _ secret

/-- A message that is signed with one of the secrets is accepted with its hostname. -/
theorem findHello_encode {message : ClientHello} {hostname : Option String}
    (hhostname : parseSniExtension width message.body.extensions = .ok hostname)
    {secret : Bytes} (hdigest : DigestMatches hmac message.encode secret) {secrets : List Bytes}
    (hmem : secret ∈ secrets) :
    ∃ hello found, findHello hmac width message.encode secrets = .ok (some (hello, found)) ∧
      hello.hostname = hostname ∧ hello.sessionId = message.body.sessionId := by
  induction secrets with
  | nil => exact (List.not_mem_nil hmem).elim
  | cons first rest ih =>
      by_cases hfirst : DigestMatches hmac message.encode first
      · refine ⟨⟨message.body.random, message.body.sessionId,
          selectTls13CipherSuite message.body.cipherSuites, hostname⟩, first, ?_, rfl, rfl⟩
        rw [findHello, parseFaketlsClientHello_encode width hfirst hhostname]
        rfl
      · have hrest : secret ∈ rest := by
          rcases List.mem_cons.mp hmem with rfl | hrest
          · exact absurd hdigest hfirst
          · exact hrest
        have hnone : parseFaketlsClientHello hmac width message.encode first = .ok none := by
          apply (parseFaketlsClientHello_rejects hmac width message.encode first).resolve_right
          rintro ⟨_, _, hmatches⟩
          exact hfirst hmatches
        obtain ⟨hello, found, hfind, hfound⟩ := ih hrest
        refine ⟨hello, found, ?_, hfound⟩
        rw [findHello, hnone]
        exact hfind

theorem clientHello_fits (message : ClientHello) :
    (tlsHandshakeClientHello ::
      (u24ToBeBytes message.body.encode.length ++ message.body.encode)).length < 2 ^ 16 := by
  have hfits := message.fits
  simp only [List.length_cons, List.length_append, u24ToBeBytes, List.length_nil]
  omega

/-- The record of a message. -/
def helloRecord (message : ClientHello) : Record where
  recordType := tlsRecordHandshake
  version := message.version
  payload := tlsHandshakeClientHello ::
    (u24ToBeBytes message.body.encode.length ++ message.body.encode)
  fits := clientHello_fits message

theorem helloRecord_payload_length (message : ClientHello) :
    (helloRecord message).payload.length = 4 + message.body.encode.length := by
  simp only [helloRecord, List.length_cons, List.length_append, u24ToBeBytes, List.length_nil]
  omega

theorem helloRecord_encode (message : ClientHello) :
    (helloRecord message).encode = message.encode := by
  rw [Record.encode, Record.header, helloRecord_payload_length]
  simp [helloRecord, ClientHello.encode]

theorem helloRecord_signed_le (hmac : Hmac) (secret : Bytes) {hostname : String}
    (sessionId : Block 32) (timestamp : UInt32) (hfits : helloHandshakeLen hostname < 2 ^ 16)
    {limit : Nat} (hle : helloHandshakeLen hostname ≤ limit) :
    (helloRecord (signedMessage hmac secret hostname sessionId timestamp hfits)).payload.length ≤
      limit := by
  have hbody : (signedMessage hmac secret hostname sessionId timestamp hfits).body.encode.length =
      (builtBody hostname sessionId hfits).encode.length := HelloBody.encode_withRandom _ _
  rw [helloRecord_payload_length, hbody, builtBody_length]
  exact hle

/-- The listener accepts the hello of a proxy that has its secret and its domain. -/
theorem acceptedHello_signed {secrets : List Bytes} {secret : Bytes} (hsecret : secret ∈ secrets)
    (hostname : String) (sessionId : Block 32) (timestamp : UInt32)
    (hfits : helloHandshakeLen hostname < 2 ^ 16) :
    ∃ hello found,
      acceptedHello hmac width secrets hostname
          (signedMessage hmac secret hostname sessionId timestamp hfits).encode =
        some (hello, found) ∧
      hello.sessionId.length < 2 ^ 8 := by
  have hdigest := digestMatches_sign hmac timestamp (builtHello hostname sessionId hfits) secret
  have hsni : parseSniExtension width
      (signedMessage hmac secret hostname sessionId timestamp hfits).body.extensions =
        .ok (some hostname) := parseSniExtension_built width hostname sessionId hfits
  obtain ⟨hello, found, hfind, hhostname, hsession⟩ := findHello_encode width hsni hdigest hsecret
  refine ⟨hello, found, ?_, hsession ▸ HelloBody.sessionId_lt _⟩
  have hversion :
      (signedMessage hmac secret hostname sessionId timestamp hfits).encode.extract 1 3 =
      [0x03, 0x01] := rfl
  have htype : (signedMessage hmac secret hostname sessionId timestamp hfits).encode.getD 0 0 =
      tlsRecordHandshake := rfl
  rw [acceptedHello, htype, hversion, if_neg (by simp), hfind]
  exact if_neg (not_not.mpr hhostname)

/-- The drain takes the flight of the listener off the wire, and nothing behind it. -/
theorem drain_serverHello {hello : FakeTlsClientHello} (hsession : hello.sessionId.length < 2 ^ 8)
    (secret : Bytes) (keyShare : Block 32) {cert : Bytes} {random : UInt32}
    (hcert : cert.length = certLen random) {source : Source UInt8} {rest : Bytes}
    (hsource : source.elements = serverHello hmac secret hello keyShare cert ++ rest) :
    ∃ after, drainFaketlsServerHello source = (true, after) ∧ Source.elements after = rest := by
  have hcertLe := certLen_le random
  have hcertLt : cert.length < 2 ^ 16 := by omega
  rw [serverHello_eq hello keyShare cert hsession hcertLt hmac secret] at hsource
  generalize hmac secret _ = digest at hsource
  have hfirst : Drainable (serverHelloRecord hello keyShare hsession digest) := by
    refine ⟨rfl, ?_⟩
    rw [serverHelloRecord, serverHelloPayload_length, tlsMaxRecordPayload]
    omega
  have hbefore : ∀ record ∈ [serverHelloRecord hello keyShare hsession digest,
      changeCipherSpecRecord], Drainable record ∧ (record.recordType = tlsRecordHandshake ∨
        record.recordType = tlsRecordChangeCipherSpec) := by
    simp only [List.forall_mem_cons, List.not_mem_nil, false_imp_iff, implies_true, and_true]
    exact ⟨⟨hfirst, .inl rfl⟩, ⟨rfl, by decide⟩, .inr rfl⟩
  have hlast : Drainable (appdataRecord cert hcertLt) := by
    refine ⟨rfl, ?_⟩
    rw [appdataRecord, hcert, tlsMaxRecordPayload]
    omega
  obtain ⟨after, hafter, hdrain⟩ := @drainRecords_flight tlsMaxHandshakeRecords source rest
    [serverHelloRecord hello keyShare hsession digest, changeCipherSpecRecord]
    (appdataRecord cert hcertLt) hbefore hlast rfl (Nat.lt_of_sub_eq_succ rfl) hsource
  exact ⟨after, hdrain, hafter⟩

end Hello

/-! ## The dialling side -/

/-- The bytes that an event writes, and whether they went out. -/
def written : Event dialSig → Option (Bytes × Bool)
  | ⟨.write bytes, done⟩ => some (bytes, done)
  | _ => none

theorem writeParts_run {parts : List Bytes} {trace : Trace dialSig} {done : Bool}
    (hrun : Runs (writeParts parts) trace done) (hsent : AllSent written trace) :
    done = true ∧ sent written trace = parts.flatten := by
  induction parts generalizing trace with
  | nil =>
      obtain ⟨rfl, rfl⟩ := hrun.of_pure
      exact ⟨rfl, rfl⟩
  | cons part parts ih =>
      obtain ⟨reply, rest, rfl, hrest⟩ := Runs.of_call hrun
      obtain rfl : reply = true := hsent.head rfl
      obtain ⟨hdone, hbytes⟩ := ih hrest hsent.tail
      refine ⟨hdone, ?_⟩
      rw [sent, List.flatMap_cons, List.flatten_cons]
      exact congrArg (part ++ ·) hbytes

section Dialling

variable {hex : Codec} {hmac : Hmac} {prim : Primitives} {proxy : UpstreamProxy hex}
  {dcIdx : Int16} {proto : ProtoTag} {timeout : Nat} {trace : Trace dialSig}
  {result : Except Fault (Option UpstreamConnection)} {source : Source UInt8}

/-- The connection that a handshake leads to. -/
def connectionOf (prim : Primitives) (proxy : UpstreamProxy hex) (dcIdx : Int16) (proto : ProtoTag)
    (draws : Draws) (reader : Source UInt8) : UpstreamConnection where
  reader := reader
  enc := (clientHandshake prim proxy.secretKey dcIdx proto draws).2.1
  dec := (clientHandshake prim proxy.secretKey dcIdx proto draws).2.2
  faketls := proxy.faketlsHostname.isSome

/-- The handshake that goes out. -/
def handshakeOf (prim : Primitives) (proxy : UpstreamProxy hex) (dcIdx : Int16) (proto : ProtoTag)
    (draws : Draws) : Block 64 :=
  (clientHandshake prim proxy.secretKey dcIdx proto draws).1

theorem connectMtprotoUpstream_plain
    (hrun : Runs (connectMtprotoUpstream hmac prim proxy dcIdx proto timeout) trace result)
    (hconnect : trace.head? = some ⟨.connect proxy.host proxy.port timeout, some source⟩)
    (hsent : AllSent written trace) (hhostname : proxy.faketlsHostname = none) :
    ∃ draws, result = .ok (some (connectionOf prim proxy dcIdx proto draws source)) ∧
      sent written trace = (handshakeOf prim proxy dcIdx proto draws).toList := by
  obtain ⟨reply, rest, rfl, hconnected⟩ := Runs.of_call hrun
  cases hconnect
  obtain ⟨draws, rest, rfl, hdrawn⟩ := Runs.of_call hconnected
  simp only [hhostname] at hdrawn
  obtain ⟨sending, _, conn, rfl, hsending, hdone⟩ := Program.runs_bind_iff.mp hdrawn
  obtain ⟨rfl, rfl⟩ := hdone.of_pure
  obtain ⟨reply, rest, rfl, hwritten⟩ := Runs.of_call hsending
  obtain ⟨rfl, rfl⟩ := hwritten.of_pure
  obtain rfl : reply = true := hsent.tail.tail.head rfl
  refine ⟨draws, ?_, ?_⟩
  · simp only [connectionOf, hhostname]
    rfl
  · simp [sent, written, handshakeOf]

/-- The hello comes first; the rest depends on the answer of the listener. -/
theorem connectMtprotoUpstream_faketls
    (hrun : Runs (connectMtprotoUpstream hmac prim proxy dcIdx proto timeout) trace result)
    (hconnect : trace.head? = some ⟨.connect proxy.host proxy.port timeout, some source⟩)
    (hsent : AllSent written trace) {hostname : String}
    (hhostname : proxy.faketlsHostname = some hostname)
    (hfits : helloHandshakeLen hostname < 2 ^ 16) :
    ∃ draws sessionId timestamp,
      (signedMessage hmac proxy.secretKey hostname sessionId timestamp hfits).encode <+:
        sent written trace ∧
      ∀ reader, drainFaketlsServerHello source = (true, reader) →
        result = .ok (some (connectionOf prim proxy dcIdx proto draws reader)) ∧
        sent written trace =
          (signedMessage hmac proxy.secretKey hostname sessionId timestamp hfits).encode ++
            (appdataWrites (handshakeOf prim proxy dcIdx proto draws).toList).flatten := by
  obtain ⟨reply, rest, rfl, hconnected⟩ := Runs.of_call hrun
  cases hconnect
  obtain ⟨draws, rest, rfl, hdrawn⟩ := Runs.of_call hconnected
  simp only [hhostname] at hdrawn
  obtain ⟨sessionId, rest, rfl, htime⟩ := Runs.of_call hdrawn
  obtain ⟨timestamp, rest, rfl, hsigned⟩ := Runs.of_call htime
  simp only [signedHello_eq _ hostname sessionId timestamp hfits] at hsigned
  obtain ⟨reply, rest, rfl, hgreeted⟩ := Runs.of_call hsigned
  obtain rfl : reply = true := hsent.tail.tail.tail.tail.head rfl
  obtain ⟨sending, _, conn, rfl, hsending, hdone⟩ := Program.runs_bind_iff.mp hgreeted
  obtain ⟨rfl, rfl⟩ := hdone.of_pure
  refine ⟨draws, sessionId, timestamp, ?_, ?_⟩
  · simp [sent, written]
  · intro reader hdrain
    simp only [sendFaketls, hdrain] at hsending
    obtain ⟨writing, _, done, rfl, hwriting, hdone⟩ := Program.runs_bind_iff.mp hsending
    obtain ⟨rfl, rfl⟩ := hdone.of_pure
    rw [List.append_nil, List.append_nil] at hsent
    obtain ⟨rfl, hbytes⟩ := writeParts_run hwriting hsent.tail.tail.tail.tail.tail
    refine ⟨?_, ?_⟩
    · simp only [connectionOf, hhostname]
      rfl
    · rw [handshakeOf, ← hbytes]
      simp [sent, written]

end Dialling

/-! ## The listening side -/

section Listening

variable {Ws Conn : Type} {hmac : Hmac} {width : PointerWidth} {secrets : List Bytes}
  {domain : String} {source : Source UInt8} {trace : Trace (handlerSig Ws Conn)}
  {result : Option (Block 64 × PendingData × Source UInt8)}

/-- After an accepted hello the listener writes one flight and collects the handshake. -/
theorem acceptInboundFaketls_run {record : Bytes} {reader : Source UInt8}
    {hello : FakeTlsClientHello} {secret : Bytes}
    (hread : readTlsRecordBytes maxInboundPayload source = (.ok (some record), reader))
    (haccepted : acceptedHello hmac width secrets domain record = some (hello, secret))
    (hrun : Runs (acceptInboundFaketls hmac width secrets domain source) trace result)
    (hsent : ∀ bytes, ⟨.inl (.write bytes), false⟩ ∉ trace) :
    ∃ keyShare cert random, List.length cert = certLen random ∧
      writes trace = [serverHello hmac secret hello keyShare cert] ∧
      result = collectHandshake reader := by
  have hresult := acceptInboundFaketls_result hread haccepted hrun hsent
  simp only [acceptInboundFaketls, hread, haccepted, buildFaketlsServerHello] at hrun
  obtain ⟨building, rest, flight, rfl, hbuilding, hwriting⟩ := Program.runs_bind_iff.mp hrun
  obtain ⟨keyShare, second, rfl, hsecond⟩ := Runs.of_call hbuilding
  obtain ⟨random, third, rfl, hthird⟩ := Runs.of_call hsecond
  obtain ⟨cert, fourth, rfl, hfourth⟩ := Runs.of_call hthird
  obtain ⟨rfl, rfl⟩ := hfourth.of_pure
  obtain ⟨reply, last, rfl, hlast⟩ := Runs.of_call hwriting
  refine ⟨keyShare, cert.toList, random, cert.toList_length, ?_, hresult⟩
  have hnone : last = [] := by
    cases reply with
    | false => exact hlast.of_pure.1
    | true => exact hlast.of_pure.1
  rw [hnone]
  rfl

theorem appdataRecords_block (block : Block 64) :
    appdataRecords block.toList =
      [appdataRecord block.toList (by rw [List.Vector.toList_length]; decide)] := by
  have hlength : block.toList.length ≤ tlsMaxAppdataWrite := by
    rw [List.Vector.toList_length]
    decide
  have hne : block.toList ≠ [] := by
    apply List.ne_nil_of_length_pos
    rw [List.Vector.toList_length]
    decide
  rw [appdataRecords, dif_neg hne, List.drop_eq_nil_of_le hlength, appdataRecords, dif_pos rfl]
  simp only [List.take_of_length_le hlength]
  rfl

/-- A handshake in a record of its own is collected as it is. -/
theorem collectHandshake_block {init : Block 64} {later : Bytes}
    (hsource : source.elements = (appdataWrites init.toList).flatten ++ later) :
    ∃ reader, collectHandshake source = some (init, {}, reader) ∧
      Source.elements reader = later := by
  rw [appdataWrites_flatten, appdataRecords_block, wire, List.flatMap_singleton] at hsource
  have hlength : init.toList.length = 64 := init.toList_length
  obtain ⟨reader, hreader, hfill⟩ := @fillHandshake_encode [] later source _ (by decide) hsource
    (by change init.toList.length ≤ _; rw [hlength]; decide)
  refine ⟨reader, ?_, hreader⟩
  have hother : ¬ tlsRecordApplicationData = tlsRecordChangeCipherSpec := by decide
  simp only [appdataRecord, hother, if_false, ne_eq, not_true_eq_false, false_or, hlength,
    List.length_nil, Nat.sub_zero, Nat.lt_irrefl, List.nil_append] at hfill
  rw [collectHandshake, hfill, if_neg (by decide), fillHandshake_of_le (Nat.le_of_eq hlength.symm)]
  have hbuf : handshakeBuf init.toList = init :=
    List.Vector.toList_injective (handshakeBuf_toList hlength)
  simp only [hbuf]

end Listening

/-! ## Both sides -/

/-- The listener reads from the handshake of a client what the client put in, and comes to
the ciphers of the client. -/
theorem clientHandshake_parses (prim : Primitives) (secret : Bytes) (dcIdx : Int16)
    (proto : ProtoTag) (draws : Draws) :
    let handshake := (clientHandshake prim secret dcIdx proto draws).1
    parseHandshake prim handshake secret =
        some ⟨dcIdx.toInt.natAbs, decide (dcIdx.toInt < 0), proto, prekeyAndIv handshake⟩ ∧
      ∀ relayInit,
        let ciphers := buildConnectionCiphers prim (prekeyAndIv handshake) secret relayInit
        ciphers.cltDec = (clientHandshake prim secret dcIdx proto draws).2.1 ∧
        ciphers.cltEnc = (clientHandshake prim secret dcIdx proto draws).2.2 := by
  have hgenerate : generateClientHandshake prim secret dcIdx proto draws.blocks =
      some (clientHandshake prim secret dcIdx proto draws) := (Option.some_get _).symm
  generalize clientHandshake prim secret dcIdx proto draws = session at hgenerate ⊢
  obtain ⟨handshake, enc, dec⟩ := session
  obtain ⟨raw, -, -, rfl, hciphers⟩ :=
    generateClientHandshake_eq_some prim secret dcIdx proto draws.blocks _ _ _ hgenerate
  exact ⟨parseHandshake_clientHandshakeFrom prim secret dcIdx proto raw, hciphers⟩

theorem clientHandshake_spec (prim : Primitives) (secret : Bytes) (dcIdx : Int16)
    (proto : ProtoTag) (draws : Draws) :
    ∃ info, parseHandshake prim (clientHandshake prim secret dcIdx proto draws).1 secret =
        some info ∧
      dcIndex info = dcIdx ∧ info.proto = proto ∧
      ∀ relayInit,
        let ciphers := buildConnectionCiphers prim info.prekeyAndIv secret relayInit
        ciphers.cltDec = (clientHandshake prim secret dcIdx proto draws).2.1 ∧
        ciphers.cltEnc = (clientHandshake prim secret dcIdx proto draws).2.2 := by
  obtain ⟨hparse, hciphers⟩ := clientHandshake_parses prim secret dcIdx proto draws
  exact ⟨_, hparse, dcIndex_eq rfl rfl, rfl, hciphers⟩

theorem findHandshake_of_first {prim : Primitives} {secrets : List Bytes} {init : Block 64}
    {index : Nat} {secret : Bytes} {info : HandshakeInfo} (hsecret : secrets[index]? = some secret)
    (hparse : parseHandshake prim init secret = some info)
    (hearlier : ∀ other ∈ secrets.take index, parseHandshake prim init other = none) :
    findHandshake prim secrets init = some (info, secret) := by
  obtain ⟨hlt, hget⟩ := List.getElem?_eq_some_iff.mp hsecret
  rw [findHandshake, ← List.take_append_drop index secrets, List.findSome?_append,
    List.findSome?_eq_none_iff.mpr, Option.none_or, List.drop_eq_getElem_cons hlt, hget]
  · rw [List.findSome?_cons, hparse]
    rfl
  · intro other hmem
    rw [hearlier other hmem]
    rfl

/-- What both sides have after the handshake: the init is the handshake of the dialling
side, behind it stands what that side sends next, and the listener reads from it the
index, the protocol and the ciphers that the other side goes on with. -/
structure Agreed {hex : Codec} (prim : Primitives) (started : Started hex)
    (index : Fin started.config.secrets.length) (secret : Bytes) (dcIdx : Int16)
    (proto : ProtoTag) (conn : UpstreamConnection) (init : Block 64) : Prop where
  faketls : conn.faketls = started.listenFaketlsDomain.isSome
  info : ∃ info, parseHandshake prim init secret = some info ∧
    dcIndex info = dcIdx ∧ info.proto = proto ∧
    ((∀ other ∈ started.normalizedSecrets.take index, parseHandshake prim init other = none) →
      findHandshake prim started.normalizedSecrets init = some (info, secret)) ∧
    ∀ relayInit,
      let ciphers := buildConnectionCiphers prim info.prekeyAndIv secret relayInit
      ciphers.cltDec = conn.enc ∧ ciphers.cltEnc = conn.dec

theorem agreed_of_draws {hex : Codec} {started : Started hex}
    {index : Fin started.config.secrets.length} {proxy : UpstreamProxy hex}
    (hnamed : started.Named index proxy) (prim : Primitives) (dcIdx : Int16) (proto : ProtoTag)
    (draws : Draws) (reader : Source UInt8) :
    Agreed prim started index proxy.secretKey dcIdx proto
      (connectionOf prim proxy dcIdx proto draws reader)
      (handshakeOf prim proxy dcIdx proto draws) := by
  obtain ⟨info, hparse, hdc, hproto, hciphers⟩ :=
    clientHandshake_spec prim proxy.secretKey dcIdx proto draws
  refine ⟨congrArg Option.isSome hnamed.hostname, info, hparse, hdc, hproto, ?_, hciphers⟩
  exact findHandshake_of_first hnamed.key hparse

/-- A proxy that has the secret of a listener, and connects to it as its upstream, comes
to a session with it: both ends of the connection may cut and delay what is sent, and as
long as no write fails neither side gives up, the listener accepts the handshake, and
both go on with the same ciphers. -/
theorem upstream_handshake_agrees {hex : Codec} {Ws Conn : Type} (hmac : Hmac) (prim : Primitives)
    (width : PointerWidth) (started : Started hex) (index : Fin started.config.secrets.length)
    (proxy : UpstreamProxy hex) (dcIdx : Int16) (proto : ProtoTag) (timeout : Nat)
    (hnamed : started.Named index proxy)
    (hlength : ∀ hostname, proxy.faketlsHostname = some hostname →
      helloHandshakeLen hostname ≤ maxInboundPayload)
    {dialled : Trace dialSig} {outcome : Except Fault (Option UpstreamConnection)}
    {source : Source UInt8}
    (hdial : Runs (connectMtprotoUpstream hmac prim proxy dcIdx proto timeout) dialled outcome)
    (hconnect : dialled.head? = some ⟨.connect proxy.host proxy.port timeout, some source⟩)
    (hsent : AllSent written dialled) {inbound : Source UInt8} {served : Trace (handlerSig Ws Conn)}
    {result : Option (Block 64 × PendingData × Source UInt8)}
    (hserve : Runs (readInboundHandshake hmac width started.normalizedSecrets
      started.listenFaketlsDomain inbound) served result)
    (hanswered : ∀ bytes, ⟨.inl (.write bytes), false⟩ ∉ served) {later answers : Bytes}
    (hinbound : inbound.elements = sent written dialled ++ later)
    (hsource : source.elements = (writes served).flatten ++ answers) :
    ∃ conn init reader, outcome = .ok (some conn) ∧ result = some (init, {}, reader) ∧
      Source.elements reader = later ∧ conn.reader.elements = answers ∧
      Agreed prim started index proxy.secretKey dcIdx proto conn init := by
  cases hdomain : started.listenFaketlsDomain with
  | none =>
      have hhostname : proxy.faketlsHostname = none := hnamed.hostname.trans hdomain
      obtain ⟨draws, rfl, hwire⟩ := connectMtprotoUpstream_plain hdial hconnect hsent hhostname
      rw [hwire] at hinbound
      obtain ⟨reader, hread, hreader⟩ := Source.readExact_append hinbound
      rw [List.Vector.toList_length] at hread
      simp only [readInboundHandshake, hdomain, hread] at hserve
      obtain ⟨rfl, rfl⟩ := hserve.of_pure
      have hbuf : handshakeBuf (handshakeOf prim proxy dcIdx proto draws).toList =
          handshakeOf prim proxy dcIdx proto draws :=
        List.Vector.toList_injective (handshakeBuf_toList (List.Vector.toList_length _))
      exact ⟨_, _, reader, rfl, by rw [hbuf], hreader, hsource,
        agreed_of_draws hnamed prim dcIdx proto draws source⟩
  | some domain =>
      have hhostname : proxy.faketlsHostname = some domain := hnamed.hostname.trans hdomain
      have hle := hlength domain hhostname
      have hfits : helloHandshakeLen domain < 2 ^ 16 := Nat.lt_of_le_of_lt hle (by decide)
      obtain ⟨draws, sessionId, timestamp, ⟨written, hwritten⟩, hfinish⟩ :=
        connectMtprotoUpstream_faketls hdial hconnect hsent hhostname hfits
      obtain ⟨hello, found, haccepted, hsession⟩ := acceptedHello_signed width
        (List.mem_of_getElem? hnamed.key) domain sessionId timestamp hfits
      -- The listener has the whole hello, so it answers with its flight.
      have hfirst : inbound.elements = (helloRecord (signedMessage hmac proxy.secretKey domain
          sessionId timestamp hfits)).encode ++ (written ++ later) := by
        rw [helloRecord_encode, hinbound, ← hwritten, List.append_assoc]
      obtain ⟨middle, hread, hmiddle⟩ := readTlsRecordBytes_encode hfirst
        (helloRecord_signed_le hmac proxy.secretKey sessionId timestamp hfits hle)
      rw [helloRecord_encode] at hread
      simp only [readInboundHandshake, hdomain] at hserve
      obtain ⟨keyShare, cert, random, hcert, hflight, hresult⟩ :=
        acceptInboundFaketls_run hread haccepted hserve hanswered
      rw [hflight, List.flatten_singleton] at hsource
      -- The flight is drained, so the handshake goes out.
      obtain ⟨after, hdrain, hafter⟩ := drain_serverHello hsession found keyShare hcert hsource
      obtain ⟨rfl, hwire⟩ := hfinish after hdrain
      rw [← hwritten] at hwire
      rw [List.append_cancel_left hwire] at hmiddle
      obtain ⟨reader, hcollect, hreader⟩ := collectHandshake_block hmiddle
      exact ⟨_, _, reader, rfl, hresult.trans hcollect, hreader, hafter,
        agreed_of_draws hnamed prim dcIdx proto draws after⟩

theorem runs_perform {α : Type} {op : Op} {next : Reply op → Dial α} (reply : Reply op)
    {trace : Trace dialSig} {value : α} (hnext : Runs (next reply) trace value) :
    Runs (perform op >>= next) (⟨op, reply⟩ :: trace) value :=
  (@Runs.perform dialSig op reply).bind hnext

/-- The parts are written when no write fails. -/
theorem exists_writeParts_run (parts : List Bytes) :
    ∃ trace, Runs (writeParts parts) trace true ∧ AllSent written trace := by
  induction parts with
  | nil => exact ⟨[], .pure true, fun _ hmem => (List.not_mem_nil hmem).elim⟩
  | cons part parts ih =>
      obtain ⟨trace, hrun, hsent⟩ := ih
      refine ⟨⟨.write part, true⟩ :: trace, ?_, ?_⟩
      · exact @runs_perform _ (.write part) _ true _ _ hrun
      · exact allSent_cons.mpr ⟨by simp [written], hsent⟩

/-- There is a run in which the answer of the listener is drained and every write succeeds. -/
theorem exists_dial_run {hex : Codec} (hmac : Hmac) (prim : Primitives)
    (proxy : UpstreamProxy hex) (dcIdx : Int16) (proto : ProtoTag) (timeout : Nat)
    {hostname : String} (hhostname : proxy.faketlsHostname = some hostname)
    (hfits : helloHandshakeLen hostname < 2 ^ 16) (draws : Draws) (sessionId : Block 32)
    (timestamp : UInt32) {source reader : Source UInt8}
    (hdrain : drainFaketlsServerHello source = (true, reader)) :
    ∃ trace result,
      Runs (connectMtprotoUpstream hmac prim proxy dcIdx proto timeout) trace result ∧
      trace.head? = some ⟨.connect proxy.host proxy.port timeout, some source⟩ ∧
      AllSent written trace ∧
      sent written trace =
        (signedMessage hmac proxy.secretKey hostname sessionId timestamp hfits).encode ++
          (appdataWrites (handshakeOf prim proxy dcIdx proto draws).toList).flatten := by
  obtain ⟨writing, hwriting, hwritten⟩ :=
    exists_writeParts_run (appdataWrites (handshakeOf prim proxy dcIdx proto draws).toList)
  obtain ⟨-, hbytes⟩ := writeParts_run hwriting hwritten
  have hsending : Runs (sendFaketls source (handshakeOf prim proxy dcIdx proto draws)
      (clientHandshake prim proxy.secretKey dcIdx proto draws).2.1
      (clientHandshake prim proxy.secretKey dcIdx proto draws).2.2) (writing ++ [])
      (some (connectionOf prim proxy dcIdx proto draws reader)) := by
    simp only [sendFaketls, hdrain, connectionOf, hhostname]
    exact hwriting.bind (.pure _)
  let hello := (signedMessage hmac proxy.secretKey hostname sessionId timestamp hfits).encode
  refine ⟨⟨.connect proxy.host proxy.port timeout, some source⟩ :: ⟨.handshakeDraws, draws⟩ ::
    ⟨.sessionId, sessionId⟩ :: ⟨.now, timestamp⟩ :: ⟨.write hello, true⟩ :: (writing ++ [] ++ []),
    .ok (some (connectionOf prim proxy dcIdx proto draws reader)), ?_, rfl, ?_, ?_⟩
  · refine @runs_perform _ (.connect _ _ _) _ (some source) _ _ ?_
    refine @runs_perform _ .handshakeDraws _ draws _ _ ?_
    simp only [hhostname]
    refine @runs_perform _ .sessionId _ sessionId _ _ ?_
    refine @runs_perform _ .now _ timestamp _ _ ?_
    simp only [signedHello_eq _ hostname sessionId timestamp hfits]
    exact @runs_perform _ (.write hello) _ true _ _ (hsending.bind (.pure _))
  · simp only [List.append_nil, allSent_cons]
    exact ⟨by simp [written], by simp [written], by simp [written], by simp [written],
      by simp [written], hwritten⟩
  · rw [← hbytes]
    simp [sent, written, hello]

/-- Two sides that talk to each other over FakeTLS, with any data behind the handshake. -/
theorem exists_faketls_runs {hex : Codec} {Ws Conn : Type} (hmac : Hmac) (prim : Primitives)
    (width : PointerWidth) {started : Started hex} {index : Fin started.config.secrets.length}
    {proxy : UpstreamProxy hex} (dcIdx : Int16) (proto : ProtoTag) (timeout : Nat)
    (hnamed : started.Named index proxy) {domain : String}
    (hdomain : started.listenFaketlsDomain = some domain)
    (hle : helloHandshakeLen domain ≤ maxInboundPayload) (draws : Draws) (later answers : Bytes) :
    ∃ (dialled : Trace dialSig) (outcome : Except Fault (Option UpstreamConnection))
      (source inbound : Source UInt8) (served : Trace (handlerSig Ws Conn))
      (result : Option (Block 64 × PendingData × Source UInt8)),
      Runs (connectMtprotoUpstream hmac prim proxy dcIdx proto timeout) dialled outcome ∧
      dialled.head? = some ⟨.connect proxy.host proxy.port timeout, some source⟩ ∧
      AllSent written dialled ∧
      Runs (readInboundHandshake hmac width started.normalizedSecrets
        started.listenFaketlsDomain inbound) served result ∧
      (∀ bytes, ⟨.inl (.write bytes), false⟩ ∉ served) ∧
      inbound.elements = sent written dialled ++ later ∧
      source.elements = (writes served).flatten ++ answers := by
  have hhostname : proxy.faketlsHostname = some domain := hnamed.hostname.trans hdomain
  have hfits : helloHandshakeLen domain < 2 ^ 16 := Nat.lt_of_le_of_lt hle (by decide)
  let sessionId : Block 32 := List.Vector.replicate 32 0
  let message := signedMessage hmac proxy.secretKey domain sessionId 0 hfits
  let init := handshakeOf prim proxy dcIdx proto draws
  obtain ⟨hello, found, haccepted, hsession⟩ := @acceptedHello_signed hmac width _ _
    (List.mem_of_getElem? hnamed.key) domain sessionId 0 hfits
  -- The listener's run on what the other side is going to write.
  let inbound : Source UInt8 :=
    [(helloRecord message).encode ++ ((appdataWrites init.toList).flatten ++ later)]
  obtain ⟨middle, hread, hmiddle⟩ := @readTlsRecordBytes_encode maxInboundPayload inbound
    (helloRecord message) _ List.flatten_singleton
    (helloRecord_signed_le hmac proxy.secretKey sessionId 0 hfits hle)
  rw [helloRecord_encode] at hread
  obtain ⟨served, result, hserve, hanswered⟩ :=
    @exists_run_sent Ws Conn hmac width _ domain inbound _ _ _ hread haccepted
  obtain ⟨keyShare, cert, random, hcert, hflight, -⟩ :=
    acceptInboundFaketls_run hread haccepted hserve hanswered
  let source : Source UInt8 := [serverHello hmac found hello keyShare cert ++ answers]
  obtain ⟨reader, hdrain, -⟩ := @drain_serverHello hmac hello hsession found keyShare cert random
    hcert source answers List.flatten_singleton
  obtain ⟨dialled, outcome, hdial, hconnect, hsent, hwire⟩ := exists_dial_run hmac prim proxy dcIdx
    proto timeout hhostname hfits draws sessionId 0 hdrain
  refine ⟨dialled, outcome, source, inbound, served, result, hdial, hconnect, hsent, ?_, hanswered,
    ?_, ?_⟩
  · simp only [readInboundHandshake, hdomain]
    exact hserve
  · rw [hwire, ← helloRecord_encode, List.append_assoc]
    exact List.flatten_singleton
  · rw [hflight, List.flatten_singleton]
    exact List.flatten_singleton

/-- The listener that poses as `a.ru`, as an upstream. -/
def posingProxy : UpstreamProxy Foundation.Hex.standard where
  host := "10.0.0.1"
  port := 443
  secret := "ee2a519e5be6c3219c69879e5fa2a0eab8612e7275"
  secretKey := [0x2a, 0x51, 0x9e, 0x5b, 0xe6, 0xc3, 0x21, 0x9c, 0x69, 0x87, 0x9e, 0x5f, 0xa2, 0xa0,
    0xea, 0xb8]
  faketlsHostname := some "a.ru"
  port_le := by decide
  decoded := ⟨_, rfl, rfl, rfl⟩

theorem upstream_handshake_agrees_posing :
    ∃ (conn : UpstreamConnection) (init : Block 64) (reader : Source UInt8),
      reader.elements = [1, 2, 3] ∧ conn.reader.elements = [4, 5] ∧
      Agreed samplePrimitives posingStarted ⟨0, by decide⟩ posingProxy.secretKey (-2) .abridged conn
        init := by
  have hnamed : posingStarted.Named ⟨0, by decide⟩ posingProxy := ⟨rfl, rfl⟩
  have hle : helloHandshakeLen "a.ru" ≤ maxInboundPayload := by
    rw [helloHandshakeLen_eq]
    decide
  obtain ⟨dialled, outcome, source, inbound, served, result, hdial, hconnect, hsent, hserve,
    hanswered, hinbound, hsource⟩ := @exists_faketls_runs _ Unit Unit zeroHmac samplePrimitives
      .bits64 _ _ posingProxy (-2) .abridged 5 hnamed "a.ru" rfl hle
      ⟨sampleDraws, by decide⟩ [1, 2, 3] [4, 5]
  obtain ⟨conn, init, reader, -, -, hreader, hconn, hagreed⟩ :=
    upstream_handshake_agrees zeroHmac samplePrimitives .bits64 posingStarted ⟨0, by decide⟩
      posingProxy (-2) .abridged 5 hnamed (fun hostname hhostname => by cases hhostname; exact hle)
      hdial hconnect hsent hserve hanswered hinbound hsource
  exact ⟨conn, init, reader, hreader, hconn, hagreed⟩

end TgWsProxy.Relay
