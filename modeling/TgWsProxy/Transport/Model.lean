import TgWsProxy.Cloudflare.Attempts
import TgWsProxy.Outbound.Connector

/-!
# Dials

How one WebSocket connection is opened: the TCP connect, the TLS handshake and the
upgrade of `connect_ws_with_path`, and over it the walk of `connect_cf_with_path`
along the preferred Cloudflare edges. Both are programs: what the network answers,
what the shared rotation counter and cooldown maps hold, and what the clock reads
is left open. Addresses are any type whose values have a text.
-/

namespace TgWsProxy.Transport

open Foundation.Effect TgWsProxy.Cloudflare

/-! ## One dial -/

/-- The arguments of `connect_ws_with_path`. -/
structure WsDial where
  ip : String
  domain : String
  path : String
  requestBinarySubprotocol : Bool
  skipTlsVerify : Bool
  timeout : Nat
  sniOverride : Option String
  disableTls : Bool
  deriving DecidableEq, Repr

/-- The layer under the upgrade: none, or TLS with a server name. -/
inductive Security
  | plaintext
  | tls (sni : String) (verify : Bool)
  deriving DecidableEq, Repr

structure Request where
  url : String
  host : String
  headers : List (String × String)
  deriving DecidableEq, Repr

/-- How the peer answers an upgrade: a handshake that ends, an HTTP response that is
no upgrade, or any other error. -/
inductive UpgradeReply (Ws : Type)
  | upgraded (ws : Ws) (status : Nat)
  | http (status : Nat)
  | error (text : String)
  deriving DecidableEq, Repr

inductive NetOp
  /-- `OutboundConnector::connect`. -/
  | connect (host : String) (port timeout : Nat)
  /-- `into_client_request`, which takes the `Host` of the request from the URL. -/
  | clientRequest (url : String)
  /-- The TLS handshake, if any, and the upgrade, within the timeout. -/
  | upgrade (security : Security) (request : Request) (timeout : Nat)
  deriving DecidableEq

@[reducible] def NetReply (Ws : Type) : NetOp → Type
  | .connect _ _ _ => Except Outbound.OutboundError Unit
  | .clientRequest _ => Except String String
  | .upgrade _ _ _ => Option (UpgradeReply Ws)

abbrev netSig (Ws : Type) : Signature := ⟨NetOp, NetReply Ws⟩

variable {Ip Ws : Type}

def netCall (op : NetOp) : Program (netSig Ws) (NetReply Ws op) :=
  @Program.perform (netSig Ws) op

def isRedirect (status : Nat) : Bool := [301, 302, 303, 307, 308].contains status

def wsPort (disableTls : Bool) : Nat := if disableTls then 80 else 443

namespace WsDial

def url (dial : WsDial) : String :=
  (if dial.disableTls then "ws" else "wss") ++ "://" ++ dial.domain ++ dial.path

def request (dial : WsDial) (host : String) : Request where
  url := dial.url
  host := host
  headers :=
    (if dial.requestBinarySubprotocol then [("Sec-WebSocket-Protocol", "binary")] else []) ++
      [("Origin", "https://web.telegram.org"),
        ("User-Agent", "Mozilla/5.0 (Windows NT 10.0; Win64; x64) AppleWebKit/537.36 " ++
          "(KHTML, like Gecko) Chrome/131.0.0.0 Safari/537.36")]

/-- `tls_handshake_and_upgrade`, or no TLS at all. A fronted name is never verified;
otherwise the server name is the host of the request. -/
def security (dial : WsDial) (request : Request) : Security :=
  if dial.disableTls then .plaintext
  else
    match dial.sniOverride with
    | some sni => .tls sni false
    | none => .tls request.host !dial.skipTlsVerify

end WsDial

def connectWsWithPath (dial : WsDial) : Program (netSig Ws) (WsConnectResult Ws) := do
  let tcp ← netCall (.connect dial.ip (wsPort dial.disableTls) dial.timeout)
  match tcp with
  | .error error =>
      if error.timedOut then pure (.connectTimedOut error.reason) else pure (.failed error.reason)
  | .ok _ => do
      let client ← netCall (.clientRequest dial.url)
      match client with
      | .error text => pure (.failed ("bad URL: " ++ text))
      | .ok host => do
          let request := dial.request host
          let result ← netCall (.upgrade (dial.security request) request dial.timeout)
          match result with
          | some (.upgraded ws status) =>
              if status = 101 then pure (.connected ws)
              else if isRedirect status then pure (.redirect status)
              else pure (.failed ("unexpected HTTP status " ++ toString status))
          | some (.http status) =>
              if isRedirect status then pure (.redirect status)
              else pure (.failed ("HTTP " ++ toString status ++ " from server"))
          | some (.error text) => pure (.failed text)
          | none => pure .timedOut

/-- `connect_ws_with_outbound_mode`, on the path of the direct endpoint. -/
def wsMode (ip domain : String) (skipTlsVerify : Bool) (timeout : Nat)
    (sniOverride : Option String) (disableTls : Bool) : WsDial where
  ip := ip
  domain := domain
  path := "/apiws"
  requestBinarySubprotocol := true
  skipTlsVerify := skipTlsVerify
  timeout := timeout
  sniOverride := sniOverride
  disableTls := disableTls

/-! ## Preferred edges -/

/-- What the walk asks a connector. -/
structure OutboundConnector where
  /-- An upstream proxy is configured. -/
  proxied : Bool
  shouldBypass : String → Nat → Bool

namespace OutboundConnector

def connectsDirectly (outbound : OutboundConnector) (targetHost : String) (targetPort : Nat) :
    Bool :=
  !outbound.proxied || outbound.shouldBypass targetHost targetPort

/-- The connector of a configuration. -/
def ofConfig (reader : Outbound.AddressReader) (config : Outbound.OutboundConfig) :
    OutboundConnector where
  proxied := config.proxy.isSome
  shouldBypass targetHost targetPort := config.shouldBypass reader targetHost.toList targetPort

theorem connectsDirectly_ofConfig (reader : Outbound.AddressReader)
    (config : Outbound.OutboundConfig) (targetHost : String) (targetPort : Nat) :
    (ofConfig reader config).connectsDirectly targetHost targetPort =
      config.connectsDirectly reader targetHost.toList targetPort := by
  unfold connectsDirectly Outbound.OutboundConfig.connectsDirectly ofConfig
  rw [Option.not_isSome]

end OutboundConnector

structure CfDialOpts (Ip : Type) where
  cfIps : List Ip
  disableTls : Bool
  failCooldown : Nat

/-- What a walk shares with the others: the rotation counter, the clock, the network,
and the cooldown map for each value of `disableTls`. -/
inductive EdgeOp (Ip : Type)
  | fetchAdd
  | entries (disableTls : Bool)
  | now
  /-- `connect_ws_with_path`. -/
  | dial (dial : WsDial)
  | insert (disableTls : Bool) (ip : Ip) (deadline : Nat)
  | remove (disableTls : Bool) (ip : Ip)

@[reducible] def EdgeReply (Ip Ws : Type) : EdgeOp Ip → Type
  | .fetchAdd | .now => Nat
  | .entries _ => Ip → Option Nat
  | .dial _ => WsConnectResult Ws
  | .insert _ _ _ | .remove _ _ => Unit

abbrev edgeSig (Ip Ws : Type) : Signature := ⟨EdgeOp Ip, EdgeReply Ip Ws⟩

abbrev EdgeM (Ip Ws α : Type) := Program (edgeSig Ip Ws) α

def edgeCall (op : EdgeOp Ip) : EdgeM Ip Ws (EdgeReply Ip Ws op) :=
  @Program.perform (edgeSig Ip Ws) op

/-- `CooldownMap::set`. -/
def setCooldown (disableTls : Bool) (ip : Ip) (cooldown : Nat) : EdgeM Ip Ws Unit := do
  let now ← edgeCall .now
  edgeCall (.insert disableTls ip (now + cooldown))

/-- `CooldownMap::clear`. -/
def clearCooldown (disableTls : Bool) (ip : Ip) : EdgeM Ip Ws Unit :=
  edgeCall (.remove disableTls ip)

def cfIpStart (ips : List Ip) : EdgeM Ip Ws Nat :=
  if ips.length ≤ 1 then pure 0
  else do
    let count ← edgeCall .fetchAdd
    pure (count % ips.length)

def isCooling (usesCooldown : Ip → Bool) (entries : Ip → Option Nat) (now : Nat) (ip : Ip) :
    Bool :=
  usesCooldown ip && (entries ip).any fun deadline => now < deadline

def cfIpAttempts (ips : List Ip) (first : Nat) (disableTls : Bool) (usesCooldown : Ip → Bool) :
    EdgeM Ip Ws (List Ip) := do
  let entries ← edgeCall (.entries disableTls)
  let now ← edgeCall .now
  let allCooling := ips.all (isCooling usesCooldown entries now)
  let limit := if allCooling then 1 else ips.length
  let inTurn := (List.finRange ips.length).map fun offset : Fin ips.length =>
    ips.get ⟨(first + offset) % ips.length, Nat.mod_lt _ offset.pos⟩
  pure ((inTurn.filter fun ip => allCooling || !isCooling usesCooldown entries now ip).take limit)

section Walk

variable [ToString Ip]

/-- The loop of `connect_cf_with_path` over the addresses that are left. The result is
absent where `expect` panics. -/
def walkEdges (dial : WsDial) (outbound : OutboundConnector) (failCooldown : Nat) :
    List Ip → Option (WsConnectResult Ws) → Option Nat → EdgeM Ip Ws (Option (WsConnectResult Ws))
  | [], lastNonRedirect, lastRedirect =>
      pure (lastNonRedirect <|> lastRedirect.map .redirect)
  | ip :: rest, lastNonRedirect, lastRedirect => do
      let target := toString ip
      let direct := outbound.connectsDirectly target (wsPort dial.disableTls)
      let result ← edgeCall (.dial { dial with ip := target })
      match result with
      | .connected ws => do
          clearCooldown dial.disableTls ip
          pure (some (.connected ws))
      | .redirect code => do
          clearCooldown dial.disableTls ip
          walkEdges dial outbound failCooldown rest lastNonRedirect (some code)
      | .failed reason => do
          clearCooldown dial.disableTls ip
          walkEdges dial outbound failCooldown rest (some (.failed reason)) lastRedirect
      | .timedOut => do
          clearCooldown dial.disableTls ip
          walkEdges dial outbound failCooldown rest (some .timedOut) lastRedirect
      | .connectTimedOut reason => do
          (if direct then setCooldown dial.disableTls ip failCooldown else pure ())
          walkEdges dial outbound failCooldown rest (some (.connectTimedOut reason)) lastRedirect

/-- The dial of a Cloudflare name itself: never fronted. -/
def cfDial (domain path : String) (requestBinarySubprotocol skipTlsVerify : Bool) (timeout : Nat)
    (disableTls : Bool) : WsDial where
  ip := domain
  domain := domain
  path := path
  requestBinarySubprotocol := requestBinarySubprotocol
  skipTlsVerify := skipTlsVerify
  timeout := timeout
  sniOverride := none
  disableTls := disableTls

/-- Without preferred addresses the name is dialled as it stands. -/
def connectCfWithPath (domain path : String) (requestBinarySubprotocol skipTlsVerify : Bool)
    (timeout : Nat) (outbound : OutboundConnector) (opts : CfDialOpts Ip) :
    EdgeM Ip Ws (Option (WsConnectResult Ws)) :=
  let dial := cfDial domain path requestBinarySubprotocol skipTlsVerify timeout opts.disableTls
  if opts.cfIps = [] then do
    let result ← edgeCall (.dial dial)
    pure (some result)
  else do
    let first ← cfIpStart opts.cfIps
    let attempts ← cfIpAttempts opts.cfIps first opts.disableTls fun ip =>
      outbound.connectsDirectly (toString ip) (wsPort opts.disableTls)
    walkEdges dial outbound opts.failCooldown attempts none none

end Walk

end TgWsProxy.Transport
