import TgWsProxy.Config.LinkSecret
import TgWsProxy.FakeTls.ClientHello
import TgWsProxy.Routing.Model

/-!
# One client connection

`handle_client` from the first byte to the bridge, as a program over the writes
to the client, the random numbers, the routing and the bridge itself. What the
client sends is a source: it ends where the client closes the connection, or
where the handshake timeout cuts the reading off.
-/

namespace TgWsProxy.Client

open Foundation.Effect Foundation.Machine Foundation.Stream
open TgWsProxy.Crypto TgWsProxy.FakeTls TgWsProxy.Routing
open Foundation.Hex (Codec)

/-! ## Framing on the client side -/

/-- What is left of a record, as an offset into the whole record. -/
structure PendingData where
  data : Bytes := []
  offset : Nat := 0

namespace PendingData

def fromRecord (data : Bytes) (offset : Nat) : PendingData := ⟨data, offset⟩

def read (pending : PendingData) (bufLen : Nat) : Option Bytes × PendingData :=
  if pending.data.length < pending.offset then (none, pending)
  else
    let remaining := pending.data.drop pending.offset
    if remaining = [] then (none, pending)
    else
      let n := min bufLen remaining.length
      let offset := pending.offset + n
      let pending := if offset = pending.data.length then {} else { pending with offset }
      (some (remaining.take n), pending)

end PendingData

inductive ClientReader
  | plain (reader : Source UInt8)
  | fakeTls (reader : Source UInt8) (pending : PendingData)

namespace ClientReader

def read (bufLen : Nat) : ClientReader → Bytes × ClientReader
  | .plain reader =>
      let (bytes, reader) := reader.read bufLen
      (bytes, .plain reader)
  | .fakeTls reader pending =>
      match pending.read bufLen with
      | (some bytes, pending) => (bytes, .fakeTls reader pending)
      | (none, pending) =>
          let (bytes, reader) := readTlsAppdata bufLen reader
          (bytes, .fakeTls reader pending)

end ClientReader

inductive ClientWriter
  | plain
  | fakeTls
  deriving DecidableEq, Repr

/-- `handshake_buf` after its first bytes were filled in. -/
def handshakeBuf (filled : Bytes) : Block 64 :=
  ⟨(filled ++ List.replicate 64 0).take 64, by simp⟩

/-- The loop that collects the handshake from ApplicationData records. -/
def fillHandshake (filled : Bytes) (source : Source UInt8) :
    Option (Bytes × PendingData) × Source UInt8 :=
  if 64 ≤ filled.length then (some (filled, {}), source)
  else
    match hread : readTlsRecordBytes (tlsMaxRecordPayload + tlsReadHeadroom) source with
    | (.error _, rest) => (none, rest)
    | (.ok none, rest) => (none, rest)
    | (.ok (some record), rest) =>
        let recordType := record.getD 0 0
        let payloadLen := record.length - 5
        if recordType = tlsRecordChangeCipherSpec then fillHandshake filled rest
        else if recordType ≠ tlsRecordApplicationData ∨ payloadLen = 0 then (none, rest)
        else
          let take := min payloadLen (64 - filled.length)
          let filled := filled ++ record.extract 5 (5 + take)
          if take ≠ payloadLen then (some (filled, .fromRecord record (5 + take)), rest)
          else fillHandshake filled rest
termination_by source.elements.length
decreasing_by
  all_goals
    obtain ⟨record, rfl, -, hsource⟩ := readTlsRecordBytes_eq_some hread
    rw [hsource, Record.encode, List.length_append, List.length_append, Record.header_length]
    omega

/-- The handshake, and the reader that goes on behind it. -/
def collectHandshake (source : Source UInt8) : Option (Block 64 × PendingData × Source UInt8) :=
  match fillHandshake [] source with
  | (none, _) => none
  | (some (filled, pending), reader) => some (handshakeBuf filled, pending, reader)

/-! ## Operations -/

/-- What a bridge is started with. -/
structure Session (Ws Conn : Type) where
  reader : ClientReader
  writer : ClientWriter
  upstream : Upstream Ws Conn
  relayInit : Block 64
  ciphers : ConnectionCiphers
  proto : ProtoTag
  dc : Nat
  isMedia : Bool

inductive Op (Ws Conn : Type)
  | fillBytes (len : Nat)
  | nextU32
  /-- `write_all` on the socket of the client, before the timeout of the handshake. -/
  | write (bytes : Bytes)
  /-- The draws of `generate_relay_init` and its padding. -/
  | relayDraws
  | drain (reader : ClientReader)
  /-- The bridge, with the connect of a TCP upstream. -/
  | bridge (session : Session Ws Conn)

@[reducible] def Reply {Ws Conn : Type} : Op Ws Conn → Type
  | .fillBytes len => Block len
  | .nextU32 => UInt32
  | .write _ => Bool
  | .relayDraws => List (Block 64) × Block 2
  | .drain _ | .bridge _ => Unit

/-- The operations on the client, and those of the routing. -/
abbrev handlerSig (Ws Conn : Type) : Signature := Signature.sum ⟨Op Ws Conn, Reply⟩ (sig Ws Conn)

abbrev Handler (Ws Conn α : Type) := Program (handlerSig Ws Conn) α

variable {Ws Conn : Type}

def perform (op : Op Ws Conn) : Handler Ws Conn (Reply op) :=
  @Program.perform (handlerSig Ws Conn) (.inl op)

/-! ## The handshake -/

section Handshake

variable (hmac : Hmac) (width : PointerWidth)

/-- The first secret under which the record is an accepted hello. -/
def findHello (record : Bytes) : List Bytes → Except Fault (Option (FakeTlsClientHello × Bytes))
  | [] => .ok none
  | secret :: rest => do
      match ← parseFaketlsClientHello hmac width record secret with
      | some hello => return some (hello, secret)
      | none => findHello record rest

def buildFaketlsServerHello (secret : Bytes) (hello : FakeTlsClientHello) :
    Handler Ws Conn Bytes := do
  let keyShare ← perform (.fillBytes 32)
  let random ← perform .nextU32
  let cert ← perform (.fillBytes (certLen random))
  return serverHello hmac secret hello keyShare cert.toList

/-- The hello of the first record, if it is accepted; a fault ends the task. -/
def acceptedHello (secrets : List Bytes) (expectedDomain : String) (record : Bytes) :
    Option (FakeTlsClientHello × Bytes) :=
  if record.getD 0 0 ≠ tlsRecordHandshake ∨ record.extract 1 3 ≠ [0x03, 0x01] then none
  else
    match findHello hmac width record secrets with
    | .error _ => none
    | .ok none => none
    | .ok (some (hello, matchedSecret)) =>
        if hello.hostname ≠ some expectedDomain then none else some (hello, matchedSecret)

def acceptInboundFaketls (secrets : List Bytes) (expectedDomain : String)
    (source : Source UInt8) : Handler Ws Conn (Option (Block 64 × PendingData × Source UInt8)) :=
  match readTlsRecordBytes (tlsMaxRecordPayload + tlsReadHeadroom) source with
  | (.error _, _) => pure none
  | (.ok none, _) => pure none
  | (.ok (some record), reader) =>
      match acceptedHello hmac width secrets expectedDomain record with
      | none => pure none
      | some (hello, matchedSecret) => do
          let serverHello ← buildFaketlsServerHello hmac matchedSecret hello
          let sent ← perform (.write serverHello)
          if sent then pure (collectHandshake reader) else pure none

def readInboundHandshake (secrets : List Bytes) (faketlsDomain : Option String)
    (source : Source UInt8) : Handler Ws Conn (Option (Block 64 × PendingData × Source UInt8)) :=
  match faketlsDomain with
  | some domain => acceptInboundFaketls hmac width secrets domain source
  | none =>
      match source.readExact 64 with
      | (none, _) => pure none
      | (some bytes, reader) => pure (some (handshakeBuf bytes, {}, reader))

end Handshake

/-! ## The handler -/

/-- `-(dc_id as i16)` for a media connection, `dc_id as i16` otherwise, both with
wrapping arithmetic. -/
def dcIndex (info : HandshakeInfo) : Int16 :=
  if info.isMedia then -Int16.ofNat info.dcId else Int16.ofNat info.dcId

/-- An index that was taken apart is put together again, also the least one, whose negation
wraps around to itself. -/
theorem dcIndex_eq {info : HandshakeInfo} {dcIdx : Int16} (hdc : info.dcId = dcIdx.toInt.natAbs)
    (hmedia : info.isMedia = decide (dcIdx.toInt < 0)) : dcIndex info = dcIdx := by
  unfold dcIndex
  rw [hdc, hmedia]
  by_cases hneg : dcIdx.toInt < 0
  · rw [if_pos (decide_eq_true hneg), Int16.neg_ofNat, Int.ofNat_natAbs_of_nonpos (by omega),
      Int.neg_neg, Int16.ofInt_toInt]
  · rw [if_neg (by simpa using hneg), ← Int16.ofInt_eq_ofNat, Int.natAbs_of_nonneg (by omega),
      Int16.ofInt_toInt]

/-- The first secret under which the init parses. -/
def findHandshake (prim : Primitives) (secrets : List Bytes) (handshake : Block 64) :
    Option (HandshakeInfo × Bytes) :=
  secrets.findSome? fun secret =>
    (parseHandshake prim handshake secret).map fun info => (info, secret)

/-- Steps 3 to 6, for a client whose init was accepted. -/
def serveClient (prim : Primitives) (config : Config) (reader : ClientReader)
    (writer : ClientWriter) (info : HandshakeInfo) (secret : Bytes) : Handler Ws Conn Unit := do
  let (draws, pad) ← perform .relayDraws
  match generateRelayInit prim info.proto (dcIndex info) pad draws with
  | none => pure ()
  | some relayInit =>
      let ciphers := buildConnectionCiphers prim info.prekeyAndIv secret relayInit
      let route : Route :=
        { config, dc := info.dcId, isMedia := info.isMedia, dcIdx := dcIndex info,
          proto := info.proto }
      let upstream ← (route.selectUpstream (config.dcTargetIp info.dcId)).inr
      match upstream with
      | none => pure ()
      | some upstream =>
          perform (.bridge
            { reader, writer, upstream, relayInit, ciphers, proto := info.proto,
              dc := info.dcId, isMedia := info.isMedia })

def handleClient {hex : Codec} (hmac : Hmac) (prim : Primitives) (width : PointerWidth)
    (started : Started hex) (source : Source UInt8) : Handler Ws Conn Unit := do
  let secrets := started.normalizedSecrets
  let faketlsDomain := started.listenFaketlsDomain
  match ← readInboundHandshake hmac width secrets faketlsDomain source with
  | none => pure ()
  | some (handshake, pending, reader) =>
      let (reader, writer) :=
        if faketlsDomain.isSome then (ClientReader.fakeTls reader pending, ClientWriter.fakeTls)
        else (.plain reader, .plain)
      match findHandshake prim secrets handshake with
      | none => perform (.drain reader)
      | some (info, secret) => serveClient prim started.config reader writer info secret

end TgWsProxy.Client
