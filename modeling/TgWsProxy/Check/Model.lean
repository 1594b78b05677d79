import TgWsProxy.Relay.Model
import TgWsProxy.Splitter.Model

/-!
# The connectivity check

`--check` probes every configured route, and with `--check-listener` the socket that the
process itself listens on. A probe is a program over the connections that it opens, the
random numbers and the clock; the check runs one probe after the other and tells whether
all of them passed. How long a probe took is reported, and not modelled.
-/

namespace TgWsProxy.Check

open Foundation.Effect Foundation.Keystream Foundation.Stream
open TgWsProxy.Crypto TgWsProxy.FakeTls
open Foundation.Hex (Codec)
open Relay (Draws clientHandshake signedHello)
open Splitter (u32FromLeBytes)

/-! ## The request -/

def resPqCtor : Nat := 0x05162463

/-- Frame length, `auth_key_id`, message id and body length come before the constructor. -/
def frameCtorOffset : Nat := 24

def frameHeaderLen : Nat := frameCtorOffset + 4

def reqPqMultiLen : Nat := 44

/-- The low `width` bytes of a number, the least first. -/
def leBytes : Nat → Nat → Bytes
  | 0, _ => []
  | width + 1, value => UInt8.ofNat value :: leBytes width (value >>> 8)

/-- `build_req_pq_multi`, with the clock in seconds and the nonce. -/
def buildReqPqMulti (unixtime : UInt64) (nonce : Block 16) : Bytes :=
  let reqPqMultiCtor := 0xbe7e8ef1
  let bodyLen := 4 + 16
  let msgId := (unixtime <<< 32).toNat
  leBytes 4 (reqPqMultiLen - 4) ++ List.replicate 8 0 ++ leBytes 8 msgId ++ leBytes 4 bodyLen ++
    leBytes 4 reqPqMultiCtor ++ nonce.toList

def replyIsResPq (plain : Bytes) : Bool :=
  if plain.length < frameHeaderLen then false
  else
    let header := plain.take frameHeaderLen
    let ctor := header.extract frameCtorOffset frameHeaderLen
    decide (header.extract 4 12 = List.replicate 8 0) &&
      decide (u32FromLeBytes (ctor.getD 0 0) (ctor.getD 1 0) (ctor.getD 2 0) (ctor.getD 3 0) =
        resPqCtor)

/-! ## Operations -/

inductive ProbeStatus
  | ok
  | fail (reason : String)
  deriving DecidableEq, Repr

def ProbeStatus.isOk : ProbeStatus → Bool
  | .ok => true
  | .fail _ => false

/-- What follows when everything that arrives on a connection has been read. -/
inductive Ending
  | closed
  | failed (error : String)
  /-- Nothing more within the time that the reader waits. -/
  | silent
  deriving DecidableEq, Repr

structure Stream where
  source : Source UInt8
  ending : Ending

/-- What a Worker tunnel does while the probe watches it. -/
inductive Settled
  | silent
  | closed
  | data (bytes : Bytes)

inductive Op
  /-- Through the outbound connector, or past it. -/
  | connect (direct : Bool) (host : String) (port timeout : Nat)
  | write (bytes : Bytes)
  | handshakeDraws
  | sessionId
  | timestamp
  | unixtime
  | nonce
  | connectCf (domain : String)
  | connectCfWorker (domain dst : String)
  | relayDraws
  | wsSend (bytes : Bytes)
  | wsRecv

@[reducible] def Reply : Op → Type
  | .connect _ _ _ _ => Except String Stream
  | .write _ | .wsSend _ => Option String
  | .handshakeDraws => Draws
  | .sessionId => Block 32
  | .timestamp => UInt32
  | .unixtime => UInt64
  | .nonce => Block 16
  | .connectCf _ | .connectCfWorker _ _ => Bool
  | .relayDraws => Draws × Block 2
  | .wsRecv => Settled

abbrev probeSig : Signature := ⟨Op, Reply⟩

abbrev Probe (α : Type) := Program probeSig α

def perform (op : Op) : Probe (Reply op) := @Program.perform probeSig op

/-! ## Probes -/

theorem generateRelayInit_isSome (prim : Primitives) (proto : ProtoTag) (dcIdx : Int16)
    (pad : Block 2) (draws : Draws) :
    (generateRelayInit prim proto dcIdx pad draws.blocks).isSome = true := by
  apply draws.isSome
  · intro block blocks hblock
    rw [generateRelayInit, if_pos hblock]
  · intro block blocks hblock
    rw [generateRelayInit, if_neg (Bool.eq_false_iff.mp hblock)]
    rfl

/-- The init of the first block that is not rejected. -/
def relayInit (prim : Primitives) (proto : ProtoTag) (dcIdx : Int16) (pad : Block 2)
    (draws : Draws) : Block 64 :=
  (generateRelayInit prim proto dcIdx pad draws.blocks).get
    (generateRelayInit_isSome prim proto dcIdx pad draws)

inductive ReadEnd
  | done
  | failed (error : String)
  | timedOut
  deriving DecidableEq, Repr

def Ending.read : Ending → ReadEnd
  | .closed => .done
  | .failed error => .failed error
  | .silent => .timedOut

/-- The loop that reads until the header is complete. -/
def readHeader (filled : Bytes) (stream : Stream) : Bytes × ReadEnd :=
  if filled.length < frameHeaderLen then
    match stream.source.read (frameHeaderLen - filled.length) with
    | ([], _) => (filled, stream.ending.read)
    | (byte :: bytes, source) => readHeader (filled ++ byte :: bytes) { stream with source }
  else (filled, .done)
termination_by frameHeaderLen - filled.length
decreasing_by
  rw [List.length_append, List.length_cons]
  omega

/-- What the answer to the request comes to. -/
def judgeReply (peer : String) (timeout : Nat) (dec : AesCtr256) (prim : Primitives)
    (read : Bytes × ReadEnd) : Except String Unit :=
  let filled := read.1.length
  let header := dec.mask prim.ks read.1
  match read.2 with
  | .timedOut => .error s!"no reply within {timeout}s"
  | .failed error => .error s!"read from {peer}: {error}"
  | .done =>
      if filled = 0 then .error s!"{peer} closed without answering — no tier reached the DC"
      else if 8 ≤ filled ∧ header.take 4 = [4, 0, 0, 0] then
        -- A transport error is a packet of four bytes.
        let code := header.extract 4 8
        let value : Int32 := Int32.ofNat
          (u32FromLeBytes (code.getD 0 0) (code.getD 1 0) (code.getD 2 0) (code.getD 3 0))
        .error s!"{peer} reported a transport error: {value}"
      else if filled < frameHeaderLen then
        .error (s!"{peer} closed after {filled} of {frameHeaderLen} header bytes" ++
          " — no tier reached the DC")
      else if replyIsResPq header then .ok ()
      else .error (peer ++ "'s reply is not resPQ")

section Probes

variable {hex : Codec} (hmac : Hmac) (prim : Primitives)

def requireResPq (stream : Stream) (enc dec : AesCtr256) (timeout : Nat) (peer : String) :
    Probe (Except String Unit) := do
  let unixtime ← perform .unixtime
  let nonce ← perform .nonce
  match ← perform (.write (enc.mask prim.ks (buildReqPqMulti unixtime nonce))) with
  | some error => pure (.error s!"send req_pq_multi: {error}")
  | none => pure (judgeReply peer timeout dec prim (readHeader [] stream))

def probeCfDomain (cfIps : Bool) (domain : String) : Probe ProbeStatus := do
  let connected ← perform (.connectCf domain)
  if connected then pure .ok
  else if cfIps then
    pure (.fail ("WebSocket connection failed through every --cf-ip — check the preferred IPs " ++
      "and Cloudflare settings"))
  else
    pure (.fail "WebSocket connection failed — check DNS records and Cloudflare settings")

def probeCfWorker (cfIps : Bool) (domain : String) : Probe ProbeStatus :=
  match defaultDcIp 2 with
  | none => pure (.fail "DC 2 default IP is missing")
  | some dst => do
      let connected ← perform (.connectCfWorker domain dst)
      if !connected then
        pure (.fail (if cfIps then
          "Worker WebSocket tunnel failed through every --cf-ip — check the preferred IPs and " ++
            "Worker code"
        else "Worker WebSocket tunnel failed — check Worker code and domain"))
      else
        let (draws, pad) ← perform .relayDraws
        match ← perform (.wsSend (relayInit prim .intermediate 2 pad draws).toList) with
        | some error => pure (.fail s!"Worker tunnel closed on send: {error}")
        | none => do
            match ← perform .wsRecv with
            | .silent => pure .ok
            | .closed =>
                pure (.fail (s!"Worker tunnel to {dst} closed immediately — the Worker " ++
                  "cannot reach Telegram (check its live logs in the Cloudflare dashboard)"))
            | .data bytes =>
                pure (.fail (s!"Worker tunnel to {dst} answered the MTProto init with " ++
                  s!"{bytes.length} unexpected bytes — the far end is not a Telegram DC"))

/-- The FakeTLS path: the answer to a signed hello is drained, and nothing else is sent. -/
def probeFaketls (stream : Stream) (secretKey : Bytes) (hostname : String) :
    Probe (Except Fault ProbeStatus) := do
  let sessionId ← perform .sessionId
  let timestamp ← perform .timestamp
  match signedHello hmac secretKey hostname sessionId timestamp with
  | .error fault => pure (.error fault)
  | .ok clientHello => do
      match ← perform (.write clientHello) with
      | some error => pure (.ok (.fail s!"send FakeTLS ClientHello: {error}"))
      | none =>
          if (drainFaketlsServerHello stream.source).1 then pure (.ok .ok)
          else pure (.ok (.fail ("FakeTLS server handshake failed or timed out — check secret " ++
            "and proxy address")))

/-- The plain path, and the probe of a listener: a handshake, a request, and an answer. -/
def probePlain (stream : Stream) (handshake : Block 64) (enc dec : AesCtr256) (timeout : Nat)
    (peer : String) : Probe ProbeStatus := do
  match ← perform (.write handshake.toList) with
  | some error => pure (.fail s!"send MTProto handshake: {error}")
  | none => do
      match ← requireResPq prim stream enc dec timeout peer with
      | .error reason => pure (.fail reason)
      | .ok () => pure .ok

def probeMtprotoProxy (proxy : UpstreamProxy hex) (timeout : Nat) :
    Probe (Except Fault ProbeStatus) := do
  match ← perform (.connect false proxy.host proxy.port timeout) with
  | .error error => pure (.ok (.fail s!"TCP connect failed: {error}"))
  | .ok stream => do
      let draws ← perform .handshakeDraws
      let (handshake, enc, dec) :=
        clientHandshake prim proxy.secretKey 2 .paddedIntermediate draws
      match proxy.faketlsHostname with
      | some hostname => probeFaketls hmac stream proxy.secretKey hostname
      | none => do
          let status ← probePlain prim stream handshake enc dec timeout "the upstream proxy"
          pure (.ok status)

def probeListener (host : String) (port : Nat) (secret : Bytes) (dcIdx : Int16) (timeout : Nat) :
    Probe ProbeStatus := do
  match ← perform (.connect true host port timeout) with
  | .error error => pure (.fail s!"TCP connect failed: {error}")
  | .ok stream => do
      let draws ← perform .handshakeDraws
      let (handshake, enc, dec) := clientHandshake prim secret dcIdx .paddedIntermediate draws
      probePlain prim stream handshake enc dec timeout "the listener"

end Probes

/-! ## The check -/

/-- The socket address of the own listener. -/
structure ListenAddr where
  ip : String
  isIpv6 : Bool
  unspecified : Bool
  port : Nat

/-- Where a listener is probed: a wildcard becomes the loopback address of its family. -/
def probeAddr (bound : ListenAddr) : String × Nat :=
  if !bound.unspecified then (bound.ip, bound.port)
  else (if bound.isIpv6 then "::1" else "127.0.0.1", bound.port)

/-- What the check reads of the configuration. -/
structure Settings (hex : Codec) where
  started : Started hex
  /-- The decoded upstream proxies. -/
  proxies : List (UpstreamProxy hex)
  cfIps : Bool
  checkListener : Bool
  handshakeTimeout : Nat
  tcpFallbackTimeout : Nat

namespace Settings

variable {hex : Codec} (settings : Settings hex)

def config : Config := settings.started.config

/-- `secret_bytes`: the key of the primary secret. -/
def secretBytes : Bytes := (settings.started.normalizedSecrets.head?).getD []

def requested : Nat :=
  settings.config.cfDomains.length + settings.config.cfWorkerDomains.length +
    settings.proxies.length + settings.checkListener.toNat

/-- A cold route may spend every timeout of the ladder before the data centre answers. -/
def replyTimeout : Nat :=
  settings.handshakeTimeout + settings.config.wsConnectTimeout + settings.config.cfConnectTimeout +
    settings.config.upstreamConnectTimeout + settings.tcpFallbackTimeout

end Settings

inductive Target (hex : Codec)
  | cfDomain (domain : String)
  | cfWorker (domain : String)
  | proxy (proxy : UpstreamProxy hex)
  | listener (host : String) (port : Nat)

section Check

variable {hex : Codec} (hmac : Hmac) (prim : Primitives) (settings : Settings hex)

/-- The probe of a target; a fault ends the process. -/
def probe : Target hex → Probe (Except Fault ProbeStatus)
  | .cfDomain domain => do
      let status ← probeCfDomain settings.cfIps domain
      pure (.ok status)
  | .cfWorker domain => do
      let status ← probeCfWorker prim settings.cfIps domain
      pure (.ok status)
  | .proxy proxy => probeMtprotoProxy hmac prim proxy settings.config.upstreamConnectTimeout
  | .listener host port => do
      let status ← probeListener prim host port settings.secretBytes 2 settings.replyTimeout
      pure (.ok status)

/-- A fault in the first part is one of the whole. -/
def orFault {α β : Type} (first : Probe (Except Fault α)) (next : α → Probe (Except Fault β)) :
    Probe (Except Fault β) := do
  match ← first with
  | .error fault => pure (.error fault)
  | .ok value => next value

/-- One loop of the check: every target is probed, also after a failure. -/
def probeAll : List (Target hex) → Bool → Probe (Except Fault Bool)
  | [], allOk => pure (.ok allOk)
  | target :: targets, allOk =>
      orFault (probe hmac prim settings target) fun status =>
        probeAll targets (if status.isOk then allOk else false)

/-- The last part: whether all is well so far, and whether the listener was skipped. -/
def checkOwnListener (listener : Option ListenAddr) (allOk : Bool) :
    Probe (Except Fault (Bool × Nat)) :=
  if settings.checkListener then
    match listener with
    | none => pure (.ok (false, 0))
    | some addr =>
        if settings.started.listenFaketlsDomain.isSome then pure (.ok (allOk, 1))
        else
          let (host, port) := probeAddr addr
          orFault (probeAll hmac prim settings [.listener host port] allOk) fun allOk =>
            pure (.ok (allOk, 0))
  else pure (.ok (allOk, 0))

def runCheckWithOutbound (listener : Option ListenAddr) : Probe (Except Fault Bool) :=
  if settings.requested = 0 then pure (.ok true)
  else
    orFault (probeAll hmac prim settings (settings.config.cfDomains.map .cfDomain) true)
      fun allOk =>
    orFault (probeAll hmac prim settings (settings.config.cfWorkerDomains.map .cfWorker) allOk)
      fun allOk =>
    orFault (probeAll hmac prim settings (settings.proxies.map .proxy) allOk) fun allOk =>
    orFault (checkOwnListener hmac prim settings listener allOk) fun (allOk, skipped) =>
      -- A skip is not a pass.
      pure (.ok (allOk && decide (settings.requested ≠ skipped)))

end Check

end TgWsProxy.Check
