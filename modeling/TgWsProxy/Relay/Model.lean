import TgWsProxy.Config.Upstream
import TgWsProxy.FakeTls.ServerHello
import TgWsProxy.Foundation.Effect
import TgWsProxy.Relay.Flow

/-!
# Upstream MTProto proxies

`connect_mtproto_upstream` plays the client towards another proxy: it connects, poses as
a TLS client where the secret asks for it, and sends a handshake of its own.
`bridge_relay` then exchanges the keystreams of the two sessions.
-/

namespace TgWsProxy.Relay

open Foundation.Effect Foundation.Keystream Foundation.Stream
open TgWsProxy.Crypto TgWsProxy.FakeTls TgWsProxy.Client
open Bridge (Sink WsEvent)
open Foundation.Hex (Codec)

/-! ## Connecting -/

/-- A connected upstream proxy; what it sends is what its reader still returns. -/
structure UpstreamConnection where
  reader : Source UInt8
  enc : AesCtr256
  dec : AesCtr256
  faketls : Bool

/-- Random blocks up to one on which `generate_client_handshake` returns. -/
structure Draws where
  blocks : List (Block 64)
  accepted : ∃ raw ∈ blocks, hasReservedPrefix raw.toList = false

inductive Op
  | connect (host : String) (port timeout : Nat)
  | handshakeDraws
  | sessionId
  | now
  | write (bytes : Bytes)

@[reducible] def Reply : Op → Type
  /- `none` is an error or a timeout of the connect; otherwise all that the peer sends. -/
  | .connect _ _ _ => Option (Source UInt8)
  | .handshakeDraws => Draws
  | .sessionId => Block 32
  | .now => UInt32
  | .write _ => Bool

abbrev dialSig : Signature := ⟨Op, Reply⟩

abbrev Dial (α : Type) := Program dialSig α

def perform (op : Op) : Dial (Reply op) := @Program.perform dialSig op

/-- A generator that passes over reserved blocks and takes any other one returns. -/
theorem Draws.isSome {α : Type} {generate : List (Block 64) → Option α}
    (hreserved : ∀ block blocks, hasReservedPrefix block.toList = true →
      generate (block :: blocks) = generate blocks)
    (hfree : ∀ block blocks, hasReservedPrefix block.toList = false →
      (generate (block :: blocks)).isSome = true) (draws : Draws) :
    (generate draws.blocks).isSome = true := by
  obtain ⟨blocks, raw, hmem, hraw⟩ := draws
  induction blocks with
  | nil => exact (List.not_mem_nil hmem).elim
  | cons block blocks ih =>
      cases hblock : hasReservedPrefix block.toList with
      | false => exact hfree block blocks hblock
      | true =>
          rcases List.mem_cons.mp hmem with rfl | hmem
          · cases hraw.symm.trans hblock
          · exact (congrArg Option.isSome (hreserved block blocks hblock)).trans (ih hmem)

theorem generateClientHandshake_isSome (prim : Primitives) (secret : Bytes) (dcIdx : Int16)
    (proto : ProtoTag) (draws : Draws) :
    (generateClientHandshake prim secret dcIdx proto draws.blocks).isSome = true := by
  apply draws.isSome
  · intro block blocks hblock
    rw [generateClientHandshake, if_pos hblock]
  · intro block blocks hblock
    rw [generateClientHandshake, if_neg (Bool.eq_false_iff.mp hblock)]
    rfl

/-- The handshake of the first block that is not rejected. -/
def clientHandshake (prim : Primitives) (secret : Bytes) (dcIdx : Int16) (proto : ProtoTag)
    (draws : Draws) : Block 64 × AesCtr256 × AesCtr256 :=
  (generateClientHandshake prim secret dcIdx proto draws.blocks).get
    (generateClientHandshake_isSome prim secret dcIdx proto draws)

/-- `write_all` of one part after the other. -/
def writeParts : List Bytes → Dial Bool
  | [] => pure true
  | part :: parts => do
      let sent ← perform (.write part)
      if sent then writeParts parts else pure false

/-- The signed hello for the hostname. -/
def signedHello (hmac : Hmac) (secret : Bytes) (hostname : String) (sessionId : Block 32)
    (timestamp : UInt32) : Except Fault Bytes := do
  let clientHello ← buildFaketlsClientHello hostname sessionId
  signFaketlsClientHello hmac timestamp clientHello secret

/-- The plain path: the handshake as it is. -/
def sendPlain (source : Source UInt8) (handshake : Block 64) (enc dec : AesCtr256) :
    Dial (Option UpstreamConnection) := do
  let sent ← perform (.write handshake.toList)
  pure (if sent then some { reader := source, enc, dec, faketls := false } else none)

/-- The FakeTLS path once the hello is out: the answer is drained, and the handshake goes
in the first ApplicationData record. -/
def sendFaketls (source : Source UInt8) (handshake : Block 64) (enc dec : AesCtr256) :
    Dial (Option UpstreamConnection) :=
  match drainFaketlsServerHello source with
  | (false, _) => pure none
  | (true, reader) => do
      let sent ← writeParts (appdataWrites handshake.toList)
      pure (if sent then some { reader, enc, dec, faketls := true } else none)

def connectMtprotoUpstream {hex : Codec} (hmac : Hmac) (prim : Primitives)
    (proxy : UpstreamProxy hex) (dcIdx : Int16) (proto : ProtoTag) (timeout : Nat) :
    Dial (Except Fault (Option UpstreamConnection)) := do
  match ← perform (.connect proxy.host proxy.port timeout) with
  | none => pure (.ok none)
  | some source =>
      let draws ← perform .handshakeDraws
      let (handshake, enc, dec) := clientHandshake prim proxy.secretKey dcIdx proto draws
      match proxy.faketlsHostname with
      | none => do
          let conn ← sendPlain source handshake enc dec
          pure (.ok conn)
      | some hostname => do
          let sessionId ← perform .sessionId
          let timestamp ← perform .now
          match signedHello hmac proxy.secretKey hostname sessionId timestamp with
          | .error fault => pure (.error fault)
          | .ok clientHello => do
              let sent ← perform (.write clientHello)
              match sent with
              | false => pure (.ok none)
              | true => do
                  let conn ← sendFaketls source handshake enc dec
                  pure (.ok conn)

/-! ## Bridging -/

def upstreamFraming (faketls : Bool) : Framing := if faketls then .appdata else .raw

def writerFraming : ClientWriter → Framing
  | .plain => .raw
  | .fakeTls => .appdata

/-- What `bridge_selected` hands to `bridge_relay`: the session with the upstream proxy
takes the place of the one with Telegram. -/
def relayCiphers (ciphers : ConnectionCiphers) (conn : UpstreamConnection) : ConnectionCiphers :=
  { ciphers with tgEnc := conn.enc, tgDec := conn.dec }

/-- The upload loop of `bridge_relay` before its first turn. -/
def relayUpload (reader : ClientReader) (ciphers : ConnectionCiphers) (results : List Bool) :
    Flow :=
  ⟨.client reader, ⟨ciphers.cltDec, ciphers.tgEnc, Sink.connect results⟩⟩

/-- The download loop of `bridge_relay` before its first turn. -/
def relayDownload (conn : UpstreamConnection) (ciphers : ConnectionCiphers) (results : List Bool) :
    Flow :=
  ⟨.upstream (upstreamFraming conn.faketls) conn.reader,
    ⟨ciphers.tgDec, ciphers.cltEnc, Sink.connect results⟩⟩

/-- The download loop of the bridge for an upstream, in the dispatch of `bridge_selected`;
`remote` is what the Telegram server of `bridge_tcp` sends. -/
def selectedDownload (upstream : Routing.Upstream (List WsEvent) UpstreamConnection)
    (remote : Source UInt8) (ciphers : ConnectionCiphers) (results : List Bool) : Flow :=
  match upstream with
  | .ws events _ => ⟨.ws events, ⟨ciphers.tgDec, ciphers.cltEnc, Sink.connect results⟩⟩
  | .mtproto conn => relayDownload conn (relayCiphers ciphers conn) results
  | .tcp _ => ⟨.upstream .raw remote, ⟨ciphers.tgDec, ciphers.cltEnc, Sink.connect results⟩⟩

end TgWsProxy.Relay
